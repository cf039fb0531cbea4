import SweepDSEmu.Network.Packet

/-!
# The multiplayer room

`RoomImpl` of `room.cpp`: the list of members, the ban lists, and the handlers of the packets that change them.  The
server loop handles one event after the other.

* A peer is a slot of the ENet host; its address is set when a connection is made.
* The verification backend is a parameter, and so are the bytes that the random generator draws for a MAC address.
* A handler returns what it sends.  Chat messages, Wi-Fi packets and logging change nothing here and are left out.
-/

namespace SweepDSEmu.Network

abbrev Peer := Nat

abbrev MacAddress := Bytes

def noPreferredMac : MacAddress := [0xFF, 0xFF, 0xFF, 0xFF, 0xFF, 0xFF]

def nintendoOUI : Bytes := [0x00, 0x1F, 0x32]

def networkVersion : Nat := 4

def azaharplusNetworkVersion : Nat := 1

structure UserData where
  username : Bytes := []
  displayName : Bytes := []
  avatarUrl : Bytes := []
  moderator : Bool := false
  deriving DecidableEq

structure GameInfo where
  name : Bytes := []
  id : Nat := 0
  deriving DecidableEq

structure Member where
  nickname : Bytes
  consoleIdHash : Bytes
  gameInfo : GameInfo := {}
  macAddress : MacAddress
  userData : UserData
  peer : Peer
  zipPassData : Option Bytes := none
  deriving DecidableEq

structure Room where
  memberSlots : Nat
  hostUsername : Bytes
  password : Bytes
  verifyUID : Bytes := []
  usernameBanList : List Bytes
  ipBanList : List Bytes
  members : List Member := []
  address : Peer → Bytes := fun _ => []

inductive StatusMessageType where
  | memberJoin
  | memberLeave
  | memberKicked
  | memberBanned
  | addressUnbanned
  deriving DecidableEq

inductive Message where
  | joinSuccess (macAddress : MacAddress)
  | joinSuccessAsMod (macAddress : MacAddress)
  | roomInformation (members : List (Bytes × MacAddress × GameInfo × UserData))
  | nameCollision
  | macCollision
  | versionMismatch
  | wrongPassword
  | roomIsFull
  | consoleIdCollision
  | statusMessage (type : StatusMessageType) (nickname username : Bytes)
  | hostKicked
  | hostBanned
  | modBanListResponse (usernames ips : List Bytes)
  | modPermissionDenied
  | modNoSuchUser
  | zipPassAnnounce (version : Nat)
  | zipPassDownload (nickname data : Bytes)
  deriving DecidableEq

inductive Action where
  | send (peer : Peer) (message : Message)
  | broadcast (message : Message)
  | disconnect (peer : Peer)
  deriving DecidableEq

/-- What happens to a room.  `uninit` is what uninitialised variables of a handler hold, `draws` what the random
generator draws. -/
inductive Event where
  | setVerifyUID (uid : Bytes)
  | connect (peer : Peer) (ip : Bytes)
  | receive (peer : Peer) (data : Bytes) (uninit : List UInt8) (draws : List Bytes)
  | disconnect (peer : Peer)

namespace Room

def isNicknameChar (c : UInt8) : Bool :=
  c == 0x20 || (0x61 ≤ c && c ≤ 0x7A) || (0x41 ≤ c && c ≤ 0x5A) || (0x30 ≤ c && c ≤ 0x39) || c == 0x2E || c == 0x5F ||
    c == 0x2D

def isValidNickname (room : Room) (nickname : Bytes) : Bool :=
  decide (3 ≤ nickname.length) && decide (nickname.length ≤ 20) && nickname.all isNicknameChar &&
    room.members.all fun m => m.nickname != nickname

def isValidMacAddress (room : Room) (address : MacAddress) : Bool :=
  room.members.all fun m => m.macAddress != address

def isValidConsoleId (room : Room) (consoleIdHash : Bytes) : Bool :=
  room.members.all fun m => m.consoleIdHash != consoleIdHash

def hasModPermission (room : Room) (client : Peer) : Bool :=
  match room.members.find? fun m => m.peer == client with
  | none => false
  | some m => m.userData.moderator || (room.hostUsername != [] && m.userData.username == room.hostUsername)

/-- `GenerateMacAddress`: the first address drawn that is free; `none` while there is none. -/
def generateMacAddress (room : Room) (draws : List Bytes) : Option MacAddress :=
  (draws.map fun tail => nintendoOUI ++ tail).find? room.isValidMacAddress

def sendStatusMessage (room : Room) (type : StatusMessageType) (nickname username : Bytes) : List Action :=
  room.members.map fun m => .send m.peer (.statusMessage type nickname username)

def broadcastRoomInformation (room : Room) : List Action :=
  [.broadcast (.roomInformation (room.members.map fun m => (m.nickname, m.macAddress, m.gameInfo, m.userData)))]

structure JoinRequest where
  nickname : Bytes
  consoleIdHash : Bytes
  preferredMac : MacAddress
  clientVersion : Nat
  pass : Bytes
  token : Bytes

def JoinRequest.read (data : Bytes) (uninit : List UInt8) : JoinRequest :=
  let packet := ({ data := data } : Packet).ignoreBytes 1
  let (nickname, packet) := packet.readString
  let (consoleIdHash, packet) := packet.readString
  let (preferredMac, packet) := packet.readArray ((List.range 6).map fun i => uninit.getD i 0)
  let (clientVersion, packet) := packet.readU32
  let (pass, packet) := packet.readString
  let (token, _) := packet.readString
  ⟨nickname, consoleIdHash, preferredMac, clientVersion, pass, token⟩

/-- The MAC address of a client that wants to join; an error is the answer that refuses the request, `none` while the
generator draws. -/
def chooseMac (room : Room) (preferredMac : MacAddress) (draws : List Bytes) : Except (Option Message) MacAddress :=
  if preferredMac ≠ noPreferredMac then
    if room.isValidMacAddress preferredMac then .ok preferredMac else .error (some .macCollision)
  else
    match room.generateMacAddress draws with
    | some mac => .ok mac
    | none => .error none

/-- The checks of `HandleJoinRequest` after the client has a MAC address, and the member that they let in. -/
def joinedMemberWith (loadUserData : Bytes → Bytes → UserData) (room : Room) (peer : Peer) (request : JoinRequest)
    (mac : MacAddress) : Except (Option Message) Member :=
  let userData := loadUserData room.verifyUID request.token
  let userData := if request.nickname = room.hostUsername then { userData with moderator := true } else userData
  if room.isValidConsoleId request.consoleIdHash = false then .error (some .consoleIdCollision)
  else if request.clientVersion ≠ networkVersion then .error (some .versionMismatch)
  else if userData.username ≠ [] ∧ userData.username ∈ room.usernameBanList then .error (some .hostBanned)
  else if room.address peer ∈ room.ipBanList then .error (some .hostBanned)
  else .ok {
    nickname := request.nickname
    consoleIdHash := request.consoleIdHash
    macAddress := mac
    userData := userData
    peer := peer }

def joinedMember (loadUserData : Bytes → Bytes → UserData) (room : Room) (peer : Peer) (data : Bytes) (uninit : List UInt8)
    (draws : List Bytes) : Except (Option Message) Member :=
  let request := JoinRequest.read data uninit
  if room.memberSlots ≤ room.members.length then .error (some .roomIsFull)
  else if request.pass ≠ room.password then .error (some .wrongPassword)
  else if room.isValidNickname request.nickname = false then .error (some .nameCollision)
  else room.chooseMac request.preferredMac draws >>= room.joinedMemberWith loadUserData peer request

def handleJoinRequest (loadUserData : Bytes → Bytes → UserData) (room : Room) (peer : Peer) (data : Bytes)
    (uninit : List UInt8) (draws : List Bytes) : Room × List Action :=
  match room.joinedMember loadUserData peer data uninit draws with
  | .error none => (room, [])
  | .error (some refusal) => (room, [.send peer refusal])
  | .ok member =>
    let status := room.sendStatusMessage .memberJoin member.nickname member.userData.username
    let room := { room with members := room.members ++ [member] }
    let success :=
      if room.hasModPermission peer then Message.joinSuccessAsMod member.macAddress
      else Message.joinSuccess member.macAddress
    (room, status ++ room.broadcastRoomInformation ++
      [.send peer success, .send peer (.zipPassAnnounce azaharplusNetworkVersion)])

def readName (data : Bytes) : Bytes := ((({ data := data } : Packet).ignoreBytes 1).readString).1

/-- The removal of a member by a moderator: `HandleModKickPacket` and the first part of `HandleModBanPacket`. -/
def removeMember (room : Room) (nickname : Bytes) : Room :=
  { room with members := room.members.eraseP fun m => m.nickname == nickname }

def handleModKickPacket (room : Room) (peer : Peer) (data : Bytes) : Room × List Action :=
  if room.hasModPermission peer = false then (room, [.send peer .modPermissionDenied])
  else
    let nickname := readName data
    match room.members.find? fun m => m.nickname == nickname with
    | none => (room, [.send peer .modNoSuchUser])
    | some target =>
      let room := room.removeMember nickname
      (room, [.send target.peer .hostKicked, .disconnect target.peer] ++
        room.sendStatusMessage .memberKicked nickname target.userData.username ++ room.broadcastRoomInformation)

def addBan (list : List Bytes) (entry : Bytes) : List Bytes := if entry ∈ list then list else list ++ [entry]

def handleModBanPacket (room : Room) (peer : Peer) (data : Bytes) : Room × List Action :=
  if room.hasModPermission peer = false then (room, [.send peer .modPermissionDenied])
  else
    let nickname := readName data
    match room.members.find? fun m => m.nickname == nickname with
    | none => (room, [.send peer .modNoSuchUser])
    | some target =>
      let username := target.userData.username
      let ip := room.address target.peer
      let room := room.removeMember nickname
      let room := { room with
        usernameBanList := if username ≠ [] then addBan room.usernameBanList username else room.usernameBanList
        ipBanList := addBan room.ipBanList ip }
      (room, [.send target.peer .hostBanned, .disconnect target.peer] ++
        room.sendStatusMessage .memberBanned nickname username ++ room.broadcastRoomInformation)

def handleModUnbanPacket (room : Room) (peer : Peer) (data : Bytes) : Room × List Action :=
  if room.hasModPermission peer = false then (room, [.send peer .modPermissionDenied])
  else
    let address := readName data
    if address ∈ room.usernameBanList ∨ address ∈ room.ipBanList then
      let room := { room with
        usernameBanList := room.usernameBanList.erase address
        ipBanList := room.ipBanList.erase address }
      (room, room.sendStatusMessage .addressUnbanned address [])
    else (room, [.send peer .modNoSuchUser])

def handleModGetBanListPacket (room : Room) (peer : Peer) : Room × List Action :=
  if room.hasModPermission peer = false then (room, [.send peer .modPermissionDenied])
  else (room, [.send peer (.modBanListResponse room.usernameBanList room.ipBanList)])

def handleGameNamePacket (room : Room) (peer : Peer) (data : Bytes) : Room × List Action :=
  let packet := ({ data := data } : Packet).ignoreBytes 1
  let (name, packet) := packet.readString
  let (id, _) := packet.readU64
  let room := { room with
    members := room.members.replaceF fun m =>
      if m.peer = peer then some { m with gameInfo := ⟨name, id⟩ } else none }
  (room, room.broadcastRoomInformation)

def sendZipPassDownloadPackets (room : Room) (client : Peer) : List Action :=
  match room.members.find? fun m => m.peer == client with
  | none => []
  | some newMember =>
    room.members.flatMap fun m =>
      match m.zipPassData, newMember.zipPassData with
      | some data, some newData =>
        if m.peer ≠ client then
          [.send m.peer (.zipPassDownload newMember.nickname newData),
            .send newMember.peer (.zipPassDownload m.nickname data)]
        else []
      | _, _ => []

/-- The data of a `IdZipPassUpload` packet that is accepted. -/
def uploadData (data : Bytes) (uninit : List UInt8) : Option Bytes :=
  let packet := ({ data := data } : Packet).ignoreBytes 1
  let (subType, packet) := packet.readU8 (uninit.getD 0 0)
  let (_, packet) := packet.readU32
  let (dataSize, _) := packet.readU32
  if subType = 2 ∧ 0 < dataSize ∧ dataSize < 1000000 ∧ data.length = dataSize + 2 + 8 then
    some ((data.drop 10).take dataSize)
  else none

def handleAzaharPlusPecificPacket (room : Room) (peer : Peer) (data : Bytes) (uninit : List UInt8) :
    Room × List Action :=
  match uploadData data uninit with
  | none => (room, [])
  | some upload =>
    match room.members.find? fun m => m.peer == peer with
    | none => (room, [])
    | some m =>
      if m.zipPassData.isSome then (room, [])
      else
        let room := { room with
          members := room.members.replaceF fun m =>
            if m.peer = peer then some { m with zipPassData := some upload } else none }
        (room, room.sendZipPassDownloadPackets peer)

def create (maxConnections : Nat) (hostUsername password : Bytes) (usernameBanList ipBanList : List Bytes) : Room where
  memberSlots := maxConnections
  hostUsername := hostUsername
  password := password
  usernameBanList := usernameBanList
  ipBanList := ipBanList

def handleClientDisconnection (room : Room) (client : Peer) : Room × List Action :=
  let nickname := ((room.members.find? fun m => m.peer == client).map Member.nickname).getD []
  let username := ((room.members.find? fun m => m.peer == client).map fun m => m.userData.username).getD []
  let room := { room with members := room.members.eraseP fun m => m.peer == client }
  let status := if nickname ≠ [] then room.sendStatusMessage .memberLeave nickname username else []
  (room, [.disconnect client] ++ status ++ room.broadcastRoomInformation)

def handlePacket (loadUserData : Bytes → Bytes → UserData) (room : Room) (peer : Peer) (data : Bytes)
    (uninit : List UInt8) (draws : List Bytes) : Room × List Action :=
  match data.head? with
  | some 1 => room.handleJoinRequest loadUserData peer data uninit draws
  | some 4 => room.handleGameNamePacket peer data
  | some 17 => room.handleModKickPacket peer data
  | some 18 => room.handleModBanPacket peer data
  | some 19 => room.handleModUnbanPacket peer data
  | some 20 => room.handleModGetBanListPacket peer
  | some 0xFF => room.handleAzaharPlusPecificPacket peer data uninit
  | _ => (room, [])

def serverLoop (loadUserData : Bytes → Bytes → UserData) (room : Room) : Event → Room × List Action
  | .setVerifyUID uid => ({ room with verifyUID := uid }, [])
  | .connect peer ip => ({ room with address := Function.update room.address peer ip }, [])
  | .disconnect peer => room.handleClientDisconnection peer
  | .receive peer data uninit draws => room.handlePacket loadUserData peer data uninit draws

end Room

end SweepDSEmu.Network
