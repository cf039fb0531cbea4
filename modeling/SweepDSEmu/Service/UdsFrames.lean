import SweepDSEmu.Service.NwmUds
import SweepDSEmu.Lib.ByteOrder
import SweepDSEmu.Lib.CheckedAccess

/-!
# The bytes of received frames

The handlers of node maps, EAPoL packets, authentication frames and secure data on the bytes that a peer sent, for a host
and for a client.  An access outside `packet.data`, `connection_status.nodes`, `node_info` or the entries of an EAPoL-Logoff
packet is the fault `outOfBounds`.

* No length, count or node id of a packet is checked: `handle_inBounds_iff` says which packets are handled inside the
  arrays.
-/

namespace SweepDSEmu.Service.NWM.Frames

abbrev Bytes := List UInt8

structure BindNodeData where
  networkNodeId : Nat
  receivedPackets : List Bytes := []
  deriving DecidableEq

/-- `NWM_UDS`, as far as received frames are concerned. -/
structure Station where
  uds : Uds
  hostMacAddress : MacAddress := 0
  connType : UInt8 := 1
  channelData : OrderedMap Nat BindNodeData := []
  deriving DecidableEq

structure WifiPacket where
  data : Bytes
  transmitterAddress : MacAddress
  destinationAddress : MacAddress
  deriving DecidableEq

inductive Fault
  | outOfBounds
  | assertion
  deriving DecidableEq

/-- What a station does besides changing its own state. -/
inductive Effect
  | act (action : Action)
  | signalConnection
  | route (packet : WifiPacket)
  | signalChannel (channel : Nat)
  deriving DecidableEq

def broadcastMac : MacAddress := 2 ^ 48 - 1

def broadcastNetworkNodeId : Nat := 0xFFFF

def eapolStartMagic : Nat := 0x201

def sizeOfLLCHeader : Nat := 8

def sizeOfEAPoLStartPacket : Nat := 0x30

def sizeOfEAPoLLogoffPacket : Nat := 0x298

def sizeOfSecureDataHeader : Nat := 14

def sizeOfAuthenticationFrame : Nat := 6

/-- A copy of `length` bytes out of a packet. -/
def copyOut (data : Bytes) (offset length : Nat) : Except Fault Bytes := checkedSlice .outOfBounds data offset length

/-- A number in network byte order inside a structure. -/
def bigEndian (raw : Bytes) (offset length : Nat) : Nat := ofLittleEndian ((raw.drop offset).take length).reverse

def littleEndian (raw : Bytes) (offset length : Nat) : Nat := ofLittleEndian ((raw.drop offset).take length)

/-- `DeserializeNodeInfo`, of the bytes of an `EAPoLNodeInfo`. -/
def deserializeNodeInfo (raw : Bytes) : NodeInfo where
  friendCodeSeed := UInt64.ofNat (bigEndian raw 0 8)
  username := Vector.ofFn fun i => UInt16.ofNat (bigEndian raw (8 + 2 * i) 2)
  networkNodeId := bigEndian raw 32 2

structure EAPoLStartPacket where
  connectionType : UInt8
  node : NodeInfo

def deserializeEAPolStartPacket (data : Bytes) : Except Fault EAPoLStartPacket := do
  let raw ← copyOut data sizeOfLLCHeader sizeOfEAPoLStartPacket
  return { connectionType := UInt8.ofNat (littleEndian raw 4 1), node := deserializeNodeInfo (raw.drop 8) }

structure EAPoLLogoffPacket where
  assignedNodeId : Nat
  connectedNodes : Nat
  maxNodes : Nat
  nodes : List NodeInfo

def decodeLogoff (raw : Bytes) : EAPoLLogoffPacket where
  assignedNodeId := bigEndian raw 4 2
  connectedNodes := littleEndian raw 18 1
  maxNodes := littleEndian raw 19 1
  nodes := (List.range udsMaxNodes).map fun i => deserializeNodeInfo (raw.drop (24 + 40 * i))

def parseEAPoLLogoffFrame (data : Bytes) : Except Fault EAPoLLogoffPacket := do
  let raw ← copyOut data sizeOfLLCHeader sizeOfEAPoLLogoffPacket
  return decodeLogoff raw

def getEAPoLFrameType (data : Bytes) : Except Fault Nat := do
  let raw ← copyOut data sizeOfLLCHeader 2
  return bigEndian raw 0 2

structure SecureDataHeader where
  isManagement : Bool
  dataChannel : Nat
  destNodeId : Nat
  srcNodeId : Nat

def parseSecureDataHeader (data : Bytes) : Except Fault SecureDataHeader := do
  let raw ← copyOut data sizeOfLLCHeader sizeOfSecureDataHeader
  return {
    isManagement := littleEndian raw 6 1 ≠ 0
    dataChannel := littleEndian raw 7 1
    destNodeId := bigEndian raw 10 2
    srcNodeId := bigEndian raw 12 2 }

def getAuthenticationSeqNumber (data : Bytes) : Except Fault Nat := do
  let raw ← copyOut data 0 sizeOfAuthenticationFrame
  return littleEndian raw 2 2

def readNodeMap (data : Bytes) : Nat → Nat → OrderedMap MacAddress Node → Except Fault (OrderedMap MacAddress Node)
  | 0, _, nodeMap => .ok nodeMap
  | count + 1, offset, nodeMap => do
    let address ← copyOut data offset 6
    let id ← copyOut data (offset + 6) 2
    let mac := ofLittleEndian address.reverse
    readNodeMap data count (offset + 8) <|
      (nodeMap.emplace mac {}).modify mac fun node => { node with connected := true, nodeId := ofLittleEndian id }

def handleNodeMapPacket (s : Station) (packet : WifiPacket) : Except Fault (Station × List Effect) :=
  if s.uds.connectionStatus.status = .connectedAsHost then .ok (s, [])
  else do
    let numEntries ← copyOut packet.data 0 8
    let nodeMap ← readNodeMap packet.data (ofLittleEndian numEntries) 8 []
    return ({ s with uds := { s.uds with nodeMap } }, [])

def acceptStart (s : Station) (mac : MacAddress) (start : EAPoLStartPacket) : Except Fault (Station × List Effect) :=
  match acceptNode s.uds mac start.connectionType start.node with
  | .ok (uds, actions) => .ok ({ s with uds }, actions.map .act)
  | .error .outOfBounds => .error .outOfBounds
  | .error _ => .error .assertion

def handleEAPoLStart (s : Station) (packet : WifiPacket) : Except Fault (Station × List Effect) :=
  if s.uds.connectionStatus.status ≠ .connectedAsHost then .ok (s, [])
  else match s.uds.nodeMap.get? packet.transmitterAddress with
    | none => .ok (s, [])
    | some entry =>
      if entry.connected then .ok (s, [])
      else if s.uds.connectionStatus.maxNodes = s.uds.connectionStatus.totalNodes then .error .assertion
      else do
        let start ← deserializeEAPolStartPacket packet.data
        acceptStart s packet.transmitterAddress start

/-- The loop over the nodes of an EAPoL-Logoff packet. -/
def takeNodes (changing : Bool) (c : ConnectionStatus) (nodeInfo : List NodeInfo) :
    List NodeInfo → Except Fault (ConnectionStatus × List NodeInfo)
  | [] => .ok (c, nodeInfo)
  | node :: nodes =>
    if node.networkNodeId = 0 then takeNodes changing c nodeInfo nodes
    else if h : node.networkNodeId - 1 < udsMaxNodes then do
      let nodeInfo ← checkedSet .outOfBounds nodeInfo (node.networkNodeId - 1) node
      takeNodes changing
        { c with
          nodeBitmask := c.nodeBitmask ||| bit (node.networkNodeId - 1)
          changedNodes := if changing then c.changedNodes ||| bit (node.networkNodeId - 1) else c.changedNodes
          nodes := c.nodes.set (node.networkNodeId - 1) node.networkNodeId h }
        nodeInfo nodes
    else .error .outOfBounds

def handleEAPoLConnecting (s : Station) (packet : WifiPacket) : Except Fault (Station × List Effect) := do
  let logoff ← parseEAPoLLogoffFrame packet.data
  let (c, nodeInfo) ← takeNodes true
    { s.uds.connectionStatus with
      networkNodeId := logoff.assignedNodeId
      totalNodes := logoff.connectedNodes
      maxNodes := logoff.maxNodes }
    (List.replicate logoff.maxNodes {}) logoff.nodes
  let status :=
    if s.connType = 1 then .connectedAsClient else if s.connType = 2 then .connectedAsSpectator else c.status
  return ({ s with
    hostMacAddress := packet.transmitterAddress
    uds := { s.uds with
      networkInfo := { totalNodes := logoff.connectedNodes, maxNodes := logoff.maxNodes }
      connectionStatus := { c with status }
      nodeInfo } }, [.signalConnection])

def handleEAPoLConnected (s : Station) (packet : WifiPacket) : Except Fault (Station × List Effect) := do
  let logoff ← parseEAPoLLogoffFrame packet.data
  let (c, nodeInfo) ← takeNodes false
    { s.uds.connectionStatus with
      totalNodes := logoff.connectedNodes
      nodes := Vector.replicate udsMaxNodes 0
      nodeBitmask := 0 }
    (List.replicate s.uds.networkInfo.maxNodes {}) logoff.nodes
  return ({ s with
    uds := { s.uds with
      networkInfo := { s.uds.networkInfo with totalNodes := logoff.connectedNodes }
      connectionStatus := { c with changedNodes := s.uds.connectionStatus.nodeBitmask ^^^ c.nodeBitmask }
      nodeInfo } }, [.signalConnection])

def handleEAPoLPacket (s : Station) (packet : WifiPacket) : Except Fault (Station × List Effect) := do
  let type ← getEAPoLFrameType packet.data
  if type = eapolStartMagic then handleEAPoLStart s packet
  else
    match s.uds.connectionStatus.status with
    | .connecting => handleEAPoLConnecting s packet
    | .connectedAsClient | .connectedAsSpectator => handleEAPoLConnected s packet
    | .notConnected | .connectedAsHost => return (s, [])

def handleAuthenticationFrame (s : Station) (packet : WifiPacket) : Except Fault (Station × List Effect) := do
  let seq ← getAuthenticationSeqNumber packet.data
  if seq = 1 then
    let _ ← copyOut packet.data 0 sizeOfAuthenticationFrame
    let (uds, actions) := NWM.handleAuthenticationFrame s.uds packet.transmitterAddress .seq1
    return ({ s with uds }, actions.map .act)
  else return (s, [])

def receiveSecureData (s : Station) (packet : WifiPacket) (secureData : SecureDataHeader) :
    Except Fault (Station × List Effect) :=
  if secureData.isManagement then .error .assertion
  else match s.channelData.get? secureData.dataChannel with
    | none => .ok (s, [])
    | some bindNode =>
      if bindNode.networkNodeId ≠ broadcastNetworkNodeId ∧ bindNode.networkNodeId ≠ secureData.srcNodeId then .ok (s, [])
      else
        .ok ({ s with
          channelData := s.channelData.modify secureData.dataChannel fun b =>
            { b with receivedPackets := b.receivedPackets ++ [packet.data] } },
          [.signalChannel secureData.dataChannel])

def handleSecureDataPacket (s : Station) (packet : WifiPacket) : Except Fault (Station × List Effect) := do
  let secureData ← parseSecureDataHeader packet.data
  let c := s.uds.connectionStatus
  if c.status ≠ .connectedAsHost ∧ c.status ≠ .connectedAsClient ∧ c.status ≠ .connectedAsSpectator then return (s, [])
  else if secureData.srcNodeId = c.networkNodeId then return (s, [])
  else if secureData.destNodeId ≠ c.networkNodeId ∧ secureData.destNodeId ≠ broadcastNetworkNodeId then
    if packet.destinationAddress ≠ broadcastMac ∧ c.status ≠ .connectedAsHost then return (s, [])
    else if c.status = .connectedAsHost ∧ secureData.destNodeId ≠ broadcastNetworkNodeId then
      return (s, [.route { packet with destinationAddress := broadcastMac }])
    else return (s, [])
  else receiveSecureData s packet secureData

inductive Handler
  | nodeMapPacket
  | eapolPacket
  | authenticationFrame
  | secureDataPacket
  deriving DecidableEq

def handle : Handler → Station → WifiPacket → Except Fault (Station × List Effect)
  | .nodeMapPacket => handleNodeMapPacket
  | .eapolPacket => handleEAPoLPacket
  | .authenticationFrame => handleAuthenticationFrame
  | .secureDataPacket => handleSecureDataPacket

/-- Nothing outside an array is accessed; assertions can fail. -/
def InBounds {α : Type} (result : Except Fault α) : Prop := result ≠ .error .outOfBounds

section InBounds

variable {α β : Type} {data : Bytes} {offset length : Nat}

@[simp] theorem inBounds_ok (a : α) : InBounds (.ok a) := by simp [InBounds]

@[simp] theorem inBounds_pure (a : α) : InBounds (pure a) := inBounds_ok a

@[simp] theorem inBounds_assertion : InBounds (.error .assertion : Except Fault α) := by simp [InBounds]

@[simp] theorem not_inBounds : ¬ InBounds (.error .outOfBounds : Except Fault α) := by simp [InBounds]

/-- What follows a copy is reached when the copy stays inside the packet. -/
theorem inBounds_copyOut_bind {f : Bytes → Except Fault β} :
    InBounds (copyOut data offset length >>= f) ↔
      offset + length ≤ data.length ∧ InBounds (f ((data.drop offset).take length)) := by
  unfold copyOut checkedSlice
  split
  case isTrue h => simp [h, ok_bind]
  case isFalse h =>
    change InBounds (.error .outOfBounds) ↔ _
    simp [h]

theorem inBounds_bind {x : Except Fault α} {f : α → Except Fault β} (hf : ∀ a, InBounds (f a)) :
    InBounds (x >>= f) ↔ InBounds x := by
  cases x with
  | ok a => simp [ok_bind, hf a]
  | error e => cases e <;> simp [InBounds, bind, Except.bind]

end InBounds

theorem readNodeMap_inBounds (data : Bytes) (count offset : Nat) (nodeMap : OrderedMap MacAddress Node)
    (h : offset ≤ data.length) :
    InBounds (readNodeMap data count offset nodeMap) ↔ offset + 8 * count ≤ data.length := by
  induction count generalizing offset nodeMap with
  | zero => simp [readNodeMap, h]
  | succ count ih =>
    rw [readNodeMap, inBounds_copyOut_bind, inBounds_copyOut_bind]
    constructor
    · rintro ⟨-, hid, hrest⟩
      have hfits := (ih (offset + 8) _ (by omega)).mp hrest
      omega
    · intro hfits
      refine ⟨by omega, by omega, ?_⟩
      exact (ih (offset + 8) _ (by omega)).mpr (by omega)

/-- The nodes of an EAPoL-Logoff packet go to their places when these are there. -/
theorem takeNodes_inBounds (changing : Bool) (c : ConnectionStatus) (nodeInfo nodes : List NodeInfo) :
    InBounds (takeNodes changing c nodeInfo nodes) ↔
      ∀ node ∈ nodes, node.networkNodeId ≤ udsMaxNodes ∧ node.networkNodeId ≤ nodeInfo.length := by
  induction nodes generalizing c nodeInfo with
  | nil => simp [takeNodes]
  | cons node nodes ih =>
    rw [takeNodes, List.forall_mem_cons]
    split
    case isTrue hzero => simp [ih, hzero]
    case isFalse hpos =>
      split
      case isTrue hlt =>
        have hle : node.networkNodeId ≤ udsMaxNodes := by omega
        by_cases hinfo : node.networkNodeId - 1 < nodeInfo.length
        · have hinfo' : node.networkNodeId ≤ nodeInfo.length := by omega
          rw [checkedSet_of_lt hinfo, ok_bind, ih, List.length_set]
          simp [hle, hinfo']
        · have hinfo' : ¬ node.networkNodeId ≤ nodeInfo.length := by omega
          have hset : checkedSet Fault.outOfBounds nodeInfo (node.networkNodeId - 1) node = .error .outOfBounds :=
            if_neg hinfo
          rw [hset]
          simp only [hinfo', and_false, false_and, iff_false]
          exact not_inBounds
      case isFalse hlt =>
        have hle : ¬ node.networkNodeId ≤ udsMaxNodes := by omega
        simp [hle]

/-- The host has an entry of `node_info` for every node that an EAPoL-Logoff packet names, and the packet has one too. -/
def RoomForLogoff (s : Uds) : Prop :=
  s.networkInfo.maxNodes ≤ udsMaxNodes ∧ s.networkInfo.maxNodes ≤ s.nodeInfo.length

/-- The host has the places that it uses for a new node. -/
def RoomForNode (s : Uds) (connectionType : UInt8) : Prop :=
  if connectionType = connectionTypeSpectator then RoomForLogoff s
  else ∀ nodeId, getNextAvailableNodeId s.connectionStatus = .ok nodeId →
    nodeId ≤ udsMaxNodes ∧ nodeId ≤ s.nodeInfo.length ∧ RoomForLogoff s

def FitsNodeMap (s : Station) (data : Bytes) : Prop :=
  s.uds.connectionStatus.status = .connectedAsHost ∨
    8 ≤ data.length ∧ 8 + 8 * littleEndian data 0 8 ≤ data.length

def FitsStart (s : Station) (packet : WifiPacket) : Prop :=
  s.uds.connectionStatus.status ≠ .connectedAsHost ∨
  (∀ entry, s.uds.nodeMap.get? packet.transmitterAddress = some entry → entry.connected) ∨
  s.uds.connectionStatus.maxNodes = s.uds.connectionStatus.totalNodes ∨
  sizeOfLLCHeader + sizeOfEAPoLStartPacket ≤ packet.data.length ∧
    RoomForNode s.uds (UInt8.ofNat (littleEndian packet.data (sizeOfLLCHeader + 4) 1))

/-- What an EAPoL-Logoff packet must be for a station with `maxNodes` entries in `node_info`. -/
def FitsLogoff (maxNodes : EAPoLLogoffPacket → Nat) (data : Bytes) : Prop :=
  sizeOfLLCHeader + sizeOfEAPoLLogoffPacket ≤ data.length ∧
    let logoff := decodeLogoff ((data.drop sizeOfLLCHeader).take sizeOfEAPoLLogoffPacket)
    ∀ node ∈ logoff.nodes, node.networkNodeId ≤ udsMaxNodes ∧ node.networkNodeId ≤ maxNodes logoff

def FitsEAPoL (s : Station) (packet : WifiPacket) : Prop :=
  sizeOfLLCHeader + 2 ≤ packet.data.length ∧
    if bigEndian packet.data sizeOfLLCHeader 2 = eapolStartMagic then FitsStart s packet
    else match s.uds.connectionStatus.status with
      | .connecting => FitsLogoff EAPoLLogoffPacket.maxNodes packet.data
      | .connectedAsClient | .connectedAsSpectator => FitsLogoff (fun _ => s.uds.networkInfo.maxNodes) packet.data
      | .notConnected | .connectedAsHost => True

def Fits : Handler → Station → WifiPacket → Prop
  | .nodeMapPacket, s, packet => FitsNodeMap s packet.data
  | .eapolPacket, s, packet => FitsEAPoL s packet
  | .authenticationFrame, _, packet => sizeOfAuthenticationFrame ≤ packet.data.length
  | .secureDataPacket, _, packet => sizeOfLLCHeader + sizeOfSecureDataHeader ≤ packet.data.length

private theorem field_of_copy (data : Bytes) {offset size o n : Nat} (h : o + n ≤ size) :
    (((data.drop offset).take size).drop o).take n = (data.drop (offset + o)).take n := by
  rw [List.drop_take, List.take_take, List.drop_drop, Nat.min_eq_left (by omega)]

theorem getNextAvailableNodeId_pos {c : ConnectionStatus} {nodeId : Nat} (h : getNextAvailableNodeId c = .ok nodeId) :
    0 < nodeId := by
  unfold getNextAvailableNodeId at h
  split at h
  · cases h
    omega
  · cases h

theorem generateEAPoLLogoffFrame_eq {nodeId maxNodes totalNodes : Nat} {nodes : List NodeInfo} :
    generateEAPoLLogoffFrame nodeId nodes maxNodes totalNodes ≠ .error .outOfBounds ↔
      maxNodes ≤ udsMaxNodes ∧ maxNodes ≤ nodes.length := by
  unfold generateEAPoLLogoffFrame
  split
  case isTrue h =>
    simp
    omega
  case isFalse h =>
    simp
    omega

/-- A computation that goes on after a step stays inside the arrays when the step does and what follows it does. -/
private theorem bind_ne_outOfBounds {α β : Type} {x : Except NWM.Fault α} {f : α → Except NWM.Fault β} :
    (x >>= f) ≠ .error .outOfBounds ↔ x ≠ .error .outOfBounds ∧ ∀ a, x = .ok a → f a ≠ .error .outOfBounds := by
  cases x with
  | ok a => simp [ok_bind]
  | error e => simp [bind, Except.bind]

theorem connectClient_of_le {s : Uds} (mac : MacAddress) (node : NodeInfo) {nodeId : Nat} (hpos : 0 < nodeId)
    (h : nodeId ≤ udsMaxNodes ∧ nodeId ≤ s.nodeInfo.length) :
    ∃ s', connectClient s mac node nodeId = .ok s' ∧ s'.networkInfo.maxNodes = s.networkInfo.maxNodes ∧
      s'.nodeInfo.length = s.nodeInfo.length := by
  rw [connectClient, dif_pos (by omega)]
  exact ⟨_, rfl, rfl, List.length_set⟩

theorem connectClient_of_not_le {s : Uds} {mac : MacAddress} {node : NodeInfo} {nodeId : Nat} (hpos : 0 < nodeId)
    (h : ¬ (nodeId ≤ udsMaxNodes ∧ nodeId ≤ s.nodeInfo.length)) :
    connectClient s mac node nodeId = .error .outOfBounds := by
  rw [connectClient, dif_neg (by omega)]

theorem acceptNode_inBounds {s : Uds} (mac : MacAddress) (connectionType : UInt8) (node : NodeInfo)
    (h : s.connectionStatus.maxNodes ≠ s.connectionStatus.totalNodes) :
    acceptNode s mac connectionType node ≠ .error .outOfBounds ↔ RoomForNode s connectionType := by
  rw [acceptNode, if_neg h, RoomForNode]
  by_cases htype : connectionType = connectionTypeSpectator
  · rw [if_neg (by simpa using htype), if_pos htype, bind_ne_outOfBounds, generateEAPoLLogoffFrame_eq]
    simp [RoomForLogoff, connectSpectator]
  · rw [if_pos htype, if_neg htype, bind_ne_outOfBounds]
    have hnext : getNextAvailableNodeId s.connectionStatus ≠ .error .outOfBounds := by
      unfold getNextAvailableNodeId
      split <;> simp
    rw [and_iff_right hnext]
    refine forall_congr' fun nodeId => forall_congr' fun hnodeId => ?_
    have hpos := getNextAvailableNodeId_pos hnodeId
    by_cases hle : nodeId ≤ udsMaxNodes ∧ nodeId ≤ s.nodeInfo.length
    · obtain ⟨s', hs', hmax, hlength⟩ := connectClient_of_le mac node hpos hle
      rw [hs', ok_bind, bind_ne_outOfBounds, generateEAPoLLogoffFrame_eq, hmax, hlength]
      simp [RoomForLogoff, hle.1, hle.2]
    · rw [connectClient_of_not_le hpos hle]
      simp only [bind, Except.bind, ne_eq, not_true_eq_false, false_iff]
      intro hroom
      exact hle ⟨hroom.1, hroom.2.1⟩

variable (s : Station) (packet : WifiPacket)

theorem handleNodeMapPacket_inBounds : InBounds (handleNodeMapPacket s packet) ↔ FitsNodeMap s packet.data := by
  unfold handleNodeMapPacket FitsNodeMap
  split
  case isTrue h => simp [h]
  case isFalse h =>
    rw [inBounds_copyOut_bind, inBounds_bind (fun _ => inBounds_pure _), or_iff_right h, Nat.zero_add,
      and_congr_right_iff]
    intro hcount
    exact readNodeMap_inBounds packet.data _ 8 [] hcount

theorem acceptStart_inBounds {s : Station} {mac : MacAddress} {start : EAPoLStartPacket}
    (h : s.uds.connectionStatus.maxNodes ≠ s.uds.connectionStatus.totalNodes) :
    InBounds (acceptStart s mac start) ↔ RoomForNode s.uds start.connectionType := by
  rw [← acceptNode_inBounds mac start.connectionType start.node h]
  unfold acceptStart
  split
  case h_1 _ _ _ hok => simp [hok]
  case h_2 _ herror => simp [herror]
  case h_3 _ e hne herror =>
    rw [herror]
    simp only [inBounds_assertion, true_iff, ne_eq, Except.error.injEq]
    exact hne

theorem handleEAPoLStart_inBounds : InBounds (handleEAPoLStart s packet) ↔ FitsStart s packet := by
  unfold handleEAPoLStart FitsStart
  split
  case isTrue h => simp [h]
  case isFalse hhost =>
    rw [or_iff_right hhost]
    cases hentry : s.uds.nodeMap.get? packet.transmitterAddress with
    | none => simp
    | some entry =>
      dsimp only
      split
      case isTrue hconnected => simp [hconnected]
      case isFalse hconnected =>
        rw [or_iff_right (by simpa using hconnected)]
        split
        case isTrue hfull => simp [hfull]
        case isFalse hroom =>
          rw [or_iff_right hroom, deserializeEAPolStartPacket, bind_assoc, inBounds_copyOut_bind, and_congr_right_iff]
          intro hlength
          rw [pure_bind, acceptStart_inBounds hroom]
          have htype : littleEndian ((packet.data.drop sizeOfLLCHeader).take sizeOfEAPoLStartPacket) 4 1 =
              littleEndian packet.data (sizeOfLLCHeader + 4) 1 :=
            congrArg ofLittleEndian (field_of_copy packet.data (by decide))
          rw [htype]

private theorem logoff_inBounds {α : Type} {data : Bytes} {maxNodes : EAPoLLogoffPacket → Nat} {changing : Bool}
    (c : EAPoLLogoffPacket → ConnectionStatus) (f : EAPoLLogoffPacket → ConnectionStatus × List NodeInfo → Except Fault α)
    (hf : ∀ logoff r, InBounds (f logoff r)) :
    InBounds (parseEAPoLLogoffFrame data >>= fun logoff =>
      takeNodes changing (c logoff) (List.replicate (maxNodes logoff) {}) logoff.nodes >>= f logoff) ↔
      FitsLogoff maxNodes data := by
  rw [parseEAPoLLogoffFrame, bind_assoc, inBounds_copyOut_bind, FitsLogoff, and_congr_right_iff]
  intro hlength
  rw [pure_bind, inBounds_bind (hf _), takeNodes_inBounds, List.length_replicate]

theorem handleEAPoLPacket_inBounds : InBounds (handleEAPoLPacket s packet) ↔ FitsEAPoL s packet := by
  rw [handleEAPoLPacket, getEAPoLFrameType, bind_assoc, inBounds_copyOut_bind, FitsEAPoL, and_congr_right_iff]
  intro hlength
  have htype : bigEndian ((packet.data.drop sizeOfLLCHeader).take 2) 0 2 = bigEndian packet.data sizeOfLLCHeader 2 :=
    congrArg (fun raw => ofLittleEndian (List.reverse raw)) (field_of_copy packet.data (by decide))
  rw [pure_bind, htype]
  split
  case isTrue hstart => exact handleEAPoLStart_inBounds s packet
  case isFalse hstart =>
    cases hstatus : s.uds.connectionStatus.status with
    | connecting => exact logoff_inBounds _ _ fun _ _ => inBounds_ok _
    | connectedAsClient => exact logoff_inBounds _ _ fun _ _ => inBounds_ok _
    | connectedAsSpectator => exact logoff_inBounds _ _ fun _ _ => inBounds_ok _
    | notConnected => simp
    | connectedAsHost => simp

theorem handleAuthenticationFrame_inBounds :
    InBounds (handleAuthenticationFrame s packet) ↔ sizeOfAuthenticationFrame ≤ packet.data.length := by
  rw [handleAuthenticationFrame, getAuthenticationSeqNumber, bind_assoc, inBounds_copyOut_bind, Nat.zero_add,
    and_iff_left_iff_imp]
  intro hlength
  rw [pure_bind]
  split
  · rw [inBounds_copyOut_bind, Nat.zero_add]
    exact ⟨hlength, inBounds_pure _⟩
  · exact inBounds_pure _

theorem handleSecureDataPacket_inBounds :
    InBounds (handleSecureDataPacket s packet) ↔ sizeOfLLCHeader + sizeOfSecureDataHeader ≤ packet.data.length := by
  rw [handleSecureDataPacket, parseSecureDataHeader, bind_assoc, inBounds_copyOut_bind, and_iff_left_iff_imp]
  intro hlength
  rw [pure_bind]
  dsimp only
  unfold receiveSecureData
  repeat' split
  all_goals simp

/-- A handler stays inside the arrays exactly when the packet fits. -/
theorem handle_inBounds_iff (h : Handler) (s : Station) (packet : WifiPacket) :
    InBounds (handle h s packet) ↔ Fits h s packet := by
  cases h with
  | nodeMapPacket => exact handleNodeMapPacket_inBounds s packet
  | eapolPacket => exact handleEAPoLPacket_inBounds s packet
  | authenticationFrame => exact handleAuthenticationFrame_inBounds s packet
  | secureDataPacket => exact handleSecureDataPacket_inBounds s packet

/-- A node map that is shorter than it says. -/
theorem short_nodeMap_not_inBounds :
    ¬ InBounds (handle .nodeMapPacket { uds := { connectionStatus := { status := .connectedAsClient } } }
      { data := [1, 0, 0, 0, 0, 0, 0, 0], transmitterAddress := 1, destinationAddress := 2 }) := by
  change ¬ _ ≠ _
  decide

end SweepDSEmu.Service.NWM.Frames
