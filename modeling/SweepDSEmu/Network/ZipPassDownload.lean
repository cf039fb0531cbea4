import SweepDSEmu.FileSys.PathParser
import SweepDSEmu.Lib.LexicalPath
import SweepDSEmu.Network.PacketCodec
import Mathlib.Data.List.DropRight

/-!
# Downloads of ZipPass data

`HandleAzaharPlusPecificPacket` of a member of a room for a download, on the bytes that a server sent, and the file that
it creates.

* The nickname is copied before its length is compared with that of the packet, and becomes a part of the path as it is:
  `download_safe_iff` says which packets are handled inside the packet and inside the two directories.
-/

namespace SweepDSEmu.Network.RoomMember

open FileSys (slash dot dotDot isNode components cString)

def ofString (s : String) : Bytes := s.toList.map fun c => c.toNat.toUInt8

def lastName (path : Bytes) : Bytes := path.rtakeWhile (· != slash)

def dirPart (path : Bytes) : Bytes := path.rdropWhile (· != slash)

/-- What a member finds on its host: the user directory, the running program, the files in the queue, and which paths
can be created and opened.  A path to a file ends with a name. -/
structure Host where
  userDir : Bytes
  programId : Bytes
  queueFiles : Nat
  createFullPath : Bytes → Bool
  opens : Bytes → Bool
  nul_notMem_userDir : 0 ∉ userDir
  name_of_opens : ∀ path, opens path = true → isNode (lastName path) = true ∧ lastName path ≠ dotDot

def idAzaharPlusSpecific : UInt8 := 0xff

def idZipPassDownload : UInt8 := 3

def queue : Bytes := ofString "queue"

def history : Bytes := ofString "history"

def Host.zipPassDir (host : Host) (dir : Bytes) : Bytes := host.userDir ++ ofString "/zippass/" ++ dir

def Host.zipPassPath (host : Host) (dir nickname : Bytes) : Bytes :=
  host.zipPassDir dir ++ ofString "/" ++ nickname ++ ofString ".pass.zip"

def Host.downloadDir (host : Host) : Bytes := if host.programId ≠ [] then queue else history

structure Download where
  path : Bytes
  contents : Bytes
  deriving DecidableEq

def copyBytes (data : Bytes) (offset length : Nat) : Except OutOfBounds Bytes :=
  if length = 0 then .ok [] else checkedSlice .outOfBounds data offset length

/-- The case for `IdZipPassDownload` once the size of the data is read. -/
def storeDownload (host : Host) (data nickname : Bytes) (nicknameLength dataSize : Nat) :
    Except OutOfBounds (Option Download) :=
  if 0 < dataSize ∧ dataSize < 1000000 ∧ data.length = dataSize + 2 * 1 + 2 * 4 + nicknameLength then
    -- the queue is full
    if host.programId ≠ [] ∧ 99 < host.queueFiles then return none
    else
      let path := host.zipPassPath host.downloadDir nickname
      if host.createFullPath path = false then return none
      -- a file that is not open is not written to
      else if host.opens (cString path) = false then return none
      else do
        let contents ← copyBytes data (2 * 1 + 2 * 4 + nicknameLength) dataSize
        return some { path := path, contents := contents }
  else return none

def handleZipPassDownload (host : Host) (data : Bytes) (packet : Packet) : Except OutOfBounds (Option Download) := do
  let (nicknameLength, packet) ← packet.readInt .u32 0
  if nicknameLength.toNat < 64 then
    let nickname ← copyBytes data (2 * 1 + 4) nicknameLength.toNat
    let (dataSize, _) ← (packet.ignoreBytes nicknameLength.toNat).readInt .u32 0
    storeDownload host data nickname nicknameLength.toNat dataSize.toNat
  else return none

def handleAzaharPlusPecificPacket (other : UInt8 → Packet → Except OutOfBounds (Option Download)) (host : Host)
    (data : Bytes) : Except OutOfBounds (Option Download) := do
  let packet : Packet := ({ data := data } : Packet).ignoreBytes 1
  let (subType, packet) ← packet.readInt .u8 0
  if subType.toNat = idZipPassDownload.toNat then handleZipPassDownload host data packet
  else other (UInt8.ofNat subType.toNat) packet

/-- A `u32` of the packet, or zero behind its end. -/
def fieldAt (data : Bytes) (offset : Nat) : Nat :=
  if offset + 4 ≤ data.length then ntohl (ofLittleEndian ((data.drop offset).take 4)) else 0

def nicknameLength (data : Bytes) : Nat := fieldAt data 2

def nickname (data : Bytes) : Bytes := (data.drop 6).take (nicknameLength data)

def dataSize (data : Bytes) : Nat := fieldAt data (6 + nicknameLength data)

def HasNickname (data : Bytes) : Prop :=
  nicknameLength data < 64 → nicknameLength data = 0 ∨ 6 + nicknameLength data ≤ data.length

structure Accepted (host : Host) (data : Bytes) : Prop where
  nicknameLength_lt : nicknameLength data < 64
  dataSize_pos : 0 < dataSize data
  dataSize_lt : dataSize data < 1000000
  length_eq : data.length = dataSize data + 2 * 1 + 2 * 4 + nicknameLength data
  room : ¬ (host.programId ≠ [] ∧ 99 < host.queueFiles)
  created : host.createFullPath (host.zipPassPath host.downloadDir (nickname data)) = true
  opened : host.opens (cString (host.zipPassPath host.downloadDir (nickname data))) = true

theorem fieldAt_lt (data : Bytes) (offset : Nat) : fieldAt data offset < 2 ^ 32 := by
  unfold fieldAt
  split
  · exact Packet.htonl_lt _
  · decide

private theorem readInt_of_le {data : Bytes} {readPos : Nat} (h : readPos + 4 ≤ data.length) :
    ({ data := data, readPos := readPos } : Packet).readInt .u32 0 =
      .ok (BitVec.ofNat 32 (fieldAt data readPos), { data := data, readPos := readPos + 4 }) := by
  have hread : ({ data := data, readPos := readPos } : Packet).read 4 =
      (some ((data.drop readPos).take 4), { data := data, readPos := readPos + 4 }) := by
    simp [Packet.read, Packet.checkSize, h]
  rw [Packet.readInt, Packet.copyOut_eq_read]
  change Except.bind (.ok (({ data := data, readPos := readPos } : Packet).read 4)) _ = _
  rw [hread, fieldAt, if_pos h]
  rfl

private theorem readInt_of_lt {packet : Packet} (h : packet.isValid = false ∨ packet.data.length < packet.readPos + 4) :
    packet.readInt .u32 0 = .ok (0, { packet with isValid := false }) := by
  have hread : packet.read 4 = (none, { packet with isValid := false }) := by
    have hcheck : packet.checkSize 4 = { packet with isValid := false } := by
      rcases h with h | h
      · simp [Packet.checkSize, h]
      · simp [Packet.checkSize, Nat.not_le.mpr h]
    simp [Packet.read, hcheck]
  rw [Packet.readInt, Packet.copyOut_eq_read]
  change Except.bind (.ok (packet.read 4)) _ = _
  rw [hread]
  rfl

theorem handleZipPassDownload_eq (host : Host) (data : Bytes) :
    handleZipPassDownload host data { data := data, readPos := 2 } =
      if nicknameLength data < 64 then
        copyBytes data 6 (nicknameLength data) >>= fun nickname =>
          storeDownload host data nickname (nicknameLength data) (dataSize data)
      else .ok none := by
  have hvalue (offset : Nat) : (BitVec.ofNat 32 (fieldAt data offset)).toNat = fieldAt data offset := by
    rw [BitVec.toNat_ofNat, Nat.mod_eq_of_lt (fieldAt_lt data offset)]
  by_cases hlength : 2 + 4 ≤ data.length
  · rw [handleZipPassDownload, readInt_of_le hlength]
    change (if (BitVec.ofNat 32 (fieldAt data 2)).toNat < 64 then
      copyBytes data 6 (BitVec.ofNat 32 (fieldAt data 2)).toNat >>= fun nickname =>
        Packet.readInt .u32 0 { data := data, readPos := 6 + (BitVec.ofNat 32 (fieldAt data 2)).toNat } >>= fun size =>
          storeDownload host data nickname (BitVec.ofNat 32 (fieldAt data 2)).toNat size.1.toNat
      else .ok none) = _
    rw [hvalue, ← nicknameLength]
    split
    · apply bind_congr
      intro nickname
      by_cases hsize : 6 + nicknameLength data + 4 ≤ data.length
      · rw [readInt_of_le hsize]
        change storeDownload host data nickname _ (BitVec.ofNat 32 _).toNat = _
        rw [hvalue, dataSize]
      · rw [readInt_of_lt (.inr (by dsimp only; omega)), dataSize, fieldAt, if_neg hsize]
        rfl
    · rfl
  · have hnickname : nicknameLength data = 0 := if_neg hlength
    have hsize : dataSize data = 0 := if_neg (by omega)
    rw [handleZipPassDownload, readInt_of_lt (.inr (by dsimp only; omega)), hnickname, hsize]
    change copyBytes data 6 0 >>= (fun nickname =>
        Packet.readInt .u32 0 { data := data, readPos := 2 + 0, isValid := false } >>= fun size =>
          storeDownload host data nickname 0 size.1.toNat) = _
    rfl

theorem handleZipPassDownload_cases (host : Host) (data : Bytes) :
    (¬ HasNickname data ∧ handleZipPassDownload host data { data := data, readPos := 2 } = .error .outOfBounds) ∨
    (HasNickname data ∧ Accepted host data ∧ ∃ contents,
      handleZipPassDownload host data { data := data, readPos := 2 } =
        .ok (some { path := host.zipPassPath host.downloadDir (nickname data), contents := contents })) ∨
    (HasNickname data ∧ ¬ Accepted host data ∧
      handleZipPassDownload host data { data := data, readPos := 2 } = .ok none) := by
  rw [handleZipPassDownload_eq]
  by_cases hlt : nicknameLength data < 64
  case neg => exact .inr (.inr ⟨fun h => absurd h hlt, fun h => hlt h.nicknameLength_lt, if_neg hlt⟩)
  rw [if_pos hlt]
  by_cases hhas : nicknameLength data = 0 ∨ 6 + nicknameLength data ≤ data.length
  case neg =>
    rw [not_or, Nat.not_le] at hhas
    left
    refine ⟨fun h => (h hlt).elim hhas.1 (Nat.not_le.mpr hhas.2), ?_⟩
    rw [copyBytes, if_neg hhas.1, checkedSlice_of_lt hhas.2]
    rfl
  have hcopy : copyBytes data 6 (nicknameLength data) = .ok (nickname data) := by
    rw [copyBytes, nickname]
    split
    case isTrue hzero => rw [hzero, List.take_zero]
    case isFalse hpos => exact checkedSlice_of_le (hhas.resolve_left hpos)
  right
  rw [hcopy]
  change _ ∨ _ ∧ _ ∧ storeDownload _ _ _ _ _ = _
  by_cases haccepted : Accepted host data
  case pos =>
    left
    refine ⟨fun _ => hhas, haccepted, ?_⟩
    have hlength := haccepted.length_eq
    refine ⟨(data.drop (2 * 1 + 2 * 4 + nicknameLength data)).take (dataSize data), ?_⟩
    change storeDownload _ _ _ _ _ = _
    rw [storeDownload, if_pos ⟨haccepted.dataSize_pos, haccepted.dataSize_lt, hlength⟩, if_neg haccepted.room]
    rw [if_neg (by simp [haccepted.created]), if_neg (by simp [haccepted.opened]), copyBytes,
      if_neg haccepted.dataSize_pos.ne', checkedSlice_of_le (by omega)]
    rfl
  case neg =>
    right
    refine ⟨fun _ => hhas, haccepted, ?_⟩
    unfold storeDownload
    split
    case isFalse => rfl
    case isTrue hsize =>
      split
      case isTrue => rfl
      case isFalse hroom =>
        dsimp only
        split
        case isTrue => rfl
        case isFalse hcreated =>
          split
          case isTrue => rfl
          case isFalse hopened =>
            exfalso
            exact haccepted ⟨hlt, hsize.1, hsize.2.1, hsize.2.2, hroom, by simpa using hcreated, by simpa using hopened⟩

def leadsTo (path : Bytes) (walk : List Bytes) : List Bytes :=
  resolve dotDot (path.head? == some slash) (components path ++ walk)

/-- The path leads to a child of `zippass/queue` or `zippass/history`. -/
def Confined (host : Host) (path : Bytes) : Prop :=
  ∃ dir ∈ [queue, history], ∃ child, leadsTo (cString path) [] = leadsTo (host.zipPassDir dir) [] ++ [child]

/-- The directories that a nickname names lead back to `zippass/queue` or `zippass/history`. -/
def LeadsBack (host : Host) (nickname : Bytes) : Prop :=
  ∃ dir ∈ [queue, history],
    leadsTo (host.zipPassDir host.downloadDir) (components (dirPart (cString nickname))) =
      leadsTo (host.zipPassDir dir) []

private theorem takeWhile_append_neg {p : UInt8 → Bool} {c : UInt8} (hc : p c = false) (l rest : Bytes) :
    (l ++ c :: rest).takeWhile p = l.takeWhile p := by
  induction l with
  | nil => simp [hc]
  | cons d l ih =>
    rw [List.cons_append, List.takeWhile_cons, List.takeWhile_cons, ih]

theorem lastName_append_slash (before rest : Bytes) : lastName (before ++ slash :: rest) = lastName rest := by
  unfold lastName List.rtakeWhile
  rw [List.reverse_append, List.reverse_cons, List.append_assoc, List.singleton_append, takeWhile_append_neg (by simp)]

theorem dirPart_append {name : Bytes} (h : slash ∉ name) (path : Bytes) : dirPart (path ++ name) = dirPart path := by
  unfold dirPart List.rdropWhile
  rw [List.reverse_append, List.dropWhile_append_of_pos]
  intro c hc
  simp only [bne_iff_ne, ne_eq]
  rintro rfl
  exact h (List.mem_reverse.mp hc)

theorem components_dirPart {path : Bytes} (h : isNode (lastName path) = true) :
    components path = components (dirPart path) ++ [lastName path] := by
  have hslash : slash ∉ lastName path := by
    intro hmem
    simpa using List.mem_rtakeWhile_imp hmem
  have hname : components (lastName path) = [lastName path] := by
    rw [FileSys.components_name hslash, if_pos h]
  have hpath : path = dirPart path ++ lastName path := List.rdropWhile_append_rtakeWhile.symm
  rcases List.eq_nil_or_concat (dirPart path) with hnil | ⟨before, last, hlast⟩
  · rw [hnil, List.nil_append] at hpath
    conv_lhs => rw [hpath]
    rw [hname, hnil]
    rfl
  · have hlastSlash : last = slash := by
      have hne : dirPart path ≠ [] := by simp [hlast]
      have hlast' := List.rdropWhile_last_not (· != slash) path hne
      have hget : (dirPart path).getLast hne = last := by simp [hlast]
      unfold dirPart at hget
      rw [hget] at hlast'
      simpa using hlast'
    subst hlastSlash
    rw [List.concat_eq_append] at hlast
    conv_lhs => rw [hpath]
    rw [hlast, List.append_assoc, List.singleton_append, FileSys.components_append_slash, hname,
      FileSys.components_append_slash]
    simp [components, splitString]

private theorem nul_notMem_zipPassDir (host : Host) {dir : Bytes} (h : 0 ∉ dir) : 0 ∉ host.zipPassDir dir := by
  unfold Host.zipPassDir
  rw [List.mem_append, List.mem_append, not_or, not_or]
  exact ⟨⟨host.nul_notMem_userDir, by decide⟩, h⟩

private theorem downloadDir_mem (host : Host) : host.downloadDir ∈ [queue, history] := by
  unfold Host.downloadDir
  split
  · exact List.mem_cons_self
  · exact List.mem_cons_of_mem _ List.mem_cons_self

private theorem nul_notMem_dir {dir : Bytes} (h : dir ∈ [queue, history]) : 0 ∉ dir := by
  rcases List.mem_cons.mp h with rfl | h
  · decide
  · rw [List.mem_singleton.mp h]
    decide

/-- The file as the host sees it: behind the directory, up to the first NUL. -/
theorem cString_zipPassPath (host : Host) {dir : Bytes} (h : dir ∈ [queue, history]) (nickname : Bytes) :
    cString (host.zipPassPath dir nickname) =
      host.zipPassDir dir ++ slash :: cString (nickname ++ ofString ".pass.zip") := by
  have hseparator : 0 ∉ host.zipPassDir dir ++ ofString "/" := by
    rw [List.mem_append, not_or]
    exact ⟨nul_notMem_zipPassDir host (nul_notMem_dir h), by decide⟩
  unfold Host.zipPassPath
  rw [List.append_assoc _ nickname, FileSys.cString_append_of_notMem hseparator, List.append_assoc]
  rfl

private theorem dirPart_cString (nickname : Bytes) :
    dirPart (cString (nickname ++ ofString ".pass.zip")) = dirPart (cString nickname) := by
  by_cases h : 0 ∈ nickname
  · rw [FileSys.cString_append_of_mem h]
  · rw [FileSys.cString_append_of_notMem h, FileSys.cString_of_notMem h]
    exact dirPart_append (by decide) nickname

private theorem head?_zipPassDir (host : Host) (dir dir' rest : Bytes) :
    (host.zipPassDir dir ++ rest).head? = (host.zipPassDir dir').head? := by
  unfold Host.zipPassDir
  cases host.userDir <;> rfl

theorem confined_iff (host : Host) (nickname : Bytes)
    (hopens : host.opens (cString (host.zipPassPath host.downloadDir nickname)) = true) :
    Confined host (host.zipPassPath host.downloadDir nickname) ↔ LeadsBack host nickname := by
  obtain ⟨hnode, hname⟩ := host.name_of_opens _ hopens
  have hpath := cString_zipPassPath host (downloadDir_mem host) nickname
  rw [hpath, lastName_append_slash] at hnode hname
  have hwalk (dir : Bytes) :
      leadsTo (cString (host.zipPassPath host.downloadDir nickname)) [] =
        resolve dotDot ((host.zipPassDir dir).head? == some slash)
          ((components (host.zipPassDir host.downloadDir) ++ components (dirPart (cString nickname))) ++
            [lastName (cString (nickname ++ ofString ".pass.zip"))]) := by
    rw [leadsTo, hpath, head?_zipPassDir host _ dir, FileSys.components_append_slash, components_dirPart hnode,
      dirPart_cString, List.append_nil, List.append_assoc]
  have hback (dir : Bytes) :
      leadsTo (host.zipPassDir host.downloadDir) (components (dirPart (cString nickname))) =
        resolve dotDot ((host.zipPassDir dir).head? == some slash)
          (components (host.zipPassDir host.downloadDir) ++ components (dirPart (cString nickname))) := by
    have hhead := head?_zipPassDir host host.downloadDir dir []
    rw [List.append_nil] at hhead
    rw [leadsTo, hhead]
  constructor
  · intro ⟨dir, hdir, child, hchild⟩
    refine ⟨dir, hdir, ?_⟩
    rw [hwalk dir] at hchild
    rw [hback dir]
    exact (resolve_concat_child_iff _ _ _ _ hname).mp ⟨child, hchild⟩
  · intro ⟨dir, hdir, hleads⟩
    rw [hback dir] at hleads
    obtain ⟨child, hchild⟩ := (resolve_concat_child_iff _ _ _ _ hname).mpr hleads
    exact ⟨dir, hdir, child, by rw [hwalk dir, hchild]⟩

/-- Nothing is read outside the packet, and a file that is created is in one of the two directories. -/
def Safe (host : Host) (result : Except OutOfBounds (Option Download)) : Prop :=
  match result with
  | .error .outOfBounds => False
  | .ok none => True
  | .ok (some download) => Confined host download.path

/-- Exactly the packets that have the nickname that they announce, and whose nickname leads back to a directory of
downloads if a file is created, are handled safely. -/
theorem download_safe_iff (other : UInt8 → Packet → Except OutOfBounds (Option Download)) (host : Host) (rest : Bytes) :
    let data := idAzaharPlusSpecific :: idZipPassDownload :: rest
    Safe host (handleAzaharPlusPecificPacket other host data) ↔
      HasNickname data ∧ (Accepted host data → LeadsBack host (nickname data)) := by
  intro data
  have hhandle : handleAzaharPlusPecificPacket other host data =
      handleZipPassDownload host data { data := data, readPos := 2 } := by
    have hread : ({ data := data, readPos := 1 } : Packet).read 1 =
        (some [idZipPassDownload], { data := data, readPos := 2 }) := by
      simp [Packet.read, Packet.checkSize, data]
    have hsubType : ({ data := data, readPos := 1 } : Packet).readInt .u8 0 =
        .ok (BitVec.ofNat 8 idZipPassDownload.toNat, { data := data, readPos := 2 }) := by
      rw [Packet.readInt, Packet.copyOut_eq_read]
      change Except.bind (.ok (({ data := data, readPos := 1 } : Packet).read 1)) _ = _
      rw [hread]
      rfl
    unfold handleAzaharPlusPecificPacket
    change Except.bind (({ data := data, readPos := 1 } : Packet).readInt .u8 0) _ = _
    rw [hsubType]
    rfl
  rw [hhandle]
  rcases handleZipPassDownload_cases host data with
    ⟨hhas, heq⟩ | ⟨hhas, haccepted, contents, heq⟩ | ⟨hhas, haccepted, heq⟩
  · rw [heq]
    exact ⟨False.elim, fun h => hhas h.1⟩
  · rw [heq]
    change Confined host _ ↔ _
    rw [confined_iff host _ haccepted.opened]
    exact ⟨fun h => ⟨hhas, fun _ => h⟩, fun h => h.2 haccepted⟩
  · rw [heq]
    exact ⟨fun _ => ⟨hhas, fun h => absurd h haccepted⟩, fun _ => trivial⟩

def openHost : Host where
  userDir := ofString "/u/"
  programId := []
  queueFiles := 0
  createFullPath _ := true
  opens path := isNode (lastName path) && lastName path != dotDot
  nul_notMem_userDir := by decide
  name_of_opens path h := by simpa using h

def escaping : Bytes :=
  idAzaharPlusSpecific :: idZipPassDownload :: [0, 0, 0, 7] ++ ofString "../../a" ++ [0, 0, 0, 1] ++ [0]

/-- It creates `/u/a.pass.zip`. -/
theorem escaping_not_safe :
    ¬ Safe openHost (handleAzaharPlusPecificPacket (fun _ _ => .ok none) openHost escaping) := by
  have hhandle : handleAzaharPlusPecificPacket (fun _ _ => .ok none) openHost escaping =
      .ok (some { path := openHost.zipPassPath history (ofString "../../a"), contents := [0] }) := rfl
  rw [hhandle]
  intro ⟨dir, hdir, child, hchild⟩
  have hlength := congrArg List.length hchild
  have hpath : (leadsTo (cString (openHost.zipPassPath history (ofString "../../a"))) []).length = 2 := by decide
  have hdirLength : (leadsTo (openHost.zipPassDir dir) []).length = 3 := by
    rcases List.mem_cons.mp hdir with rfl | hdir
    · decide
    · rw [List.mem_singleton.mp hdir]
      decide
  rw [List.length_append, hpath, hdirLength] at hlength
  omega

end SweepDSEmu.Network.RoomMember
