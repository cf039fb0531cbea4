import SweepDSEmu.Lib.OrderedMap
import SweepDSEmu.Lib.Outcome
import Mathlib.Order.Nat

/-!
# The local wireless service of a host

What `NWM_UDS` keeps about the network it hosts, and how it handles the frames by which clients come and go: the host
answers an authentication frame, takes the client in when its EAPoL-Start arrives, and lets it go when it
deauthenticates.

A MAC address is the number that its six bytes spell, so that the order of `node_map` is that of the numbers.  Frames
are given as what `uds_data.cpp` and `uds_connection.cpp` decode from their bytes.  The branches that only a client
takes are not modelled.
-/

namespace SweepDSEmu.Service.NWM

abbrev MacAddress := Nat

def udsMaxNodes : Nat := 16

def nodeIDSpec : Nat := 0

structure NodeInfo where
  friendCodeSeed : UInt64 := 0
  username : Vector UInt16 10 := Vector.replicate 10 0
  networkNodeId : Nat := 0
  deriving DecidableEq

def NodeInfo.reset (_ : NodeInfo) : NodeInfo := {}

inductive NetworkStatus
  | notConnected
  | connectedAsHost
  | connecting
  | connectedAsClient
  | connectedAsSpectator
  deriving DecidableEq

structure ConnectionStatus where
  status : NetworkStatus := .notConnected
  networkNodeId : Nat := 0
  changedNodes : BitVec 16 := 0
  nodes : Vector Nat udsMaxNodes := Vector.replicate udsMaxNodes 0
  totalNodes : Nat := 0
  maxNodes : Nat := 0
  nodeBitmask : BitVec 16 := 0
  deriving DecidableEq

structure NetworkInfo where
  totalNodes : Nat := 0
  maxNodes : Nat := 0
  deriving DecidableEq

structure Node where
  connected : Bool := false
  spec : Bool := false
  nodeId : Nat := 0
  deriving DecidableEq

structure Uds where
  initialized : Bool := true
  connectionStatus : ConnectionStatus := {}
  networkInfo : NetworkInfo := {}
  currentNode : NodeInfo := {}
  nodeInfo : List NodeInfo := []
  nodeMap : OrderedMap MacAddress Node := []
  deriving DecidableEq

/-- The ways in which the handlers give up. -/
inductive Fault
  | onlyOneMember
  | maxNodesReached
  | noAvailableConnectionSlots
  | outOfBounds
  deriving DecidableEq

inductive AuthenticationSeq
  | seq1
  | seq2
  deriving DecidableEq

/-- The frames by which clients come and go. -/
inductive Frame
  | authentication (seq : AuthenticationSeq)
  | eapolStart (connectionType : UInt8) (node : NodeInfo)
  | deauthentication
  deriving DecidableEq

/-- What the host does besides changing its own state. -/
inductive Action
  | sendAuthentication (destination : MacAddress) (seq : AuthenticationSeq)
  | sendAssociationResponse (destination : MacAddress)
  | broadcastNodeMap (entries : List (MacAddress × Nat))
  | broadcastEAPoLLogoff (assignedNodeId : Nat) (nodes : List NodeInfo) (maxNodes totalNodes : Nat)
  | signalConnectionStatus
  deriving DecidableEq

def connectionTypeSpectator : UInt8 := 2

/-- Bit `index` of a 16-bit mask, as `1 << index` in an assignment to it. -/
def bit (index : Nat) : BitVec 16 := 1#16 <<< index

def getNextAvailableNodeId (c : ConnectionStatus) : Except Fault Nat :=
  match (List.range c.maxNodes).find? fun index => c.nodeBitmask.toNat &&& 1 <<< index = 0 with
  | some index => .ok (index + 1)
  | none => .error .noAvailableConnectionSlots

def broadcastNodeMap (s : Uds) : Action :=
  .broadcastNodeMap ((s.nodeMap.filter fun p => p.2.connected && !p.2.spec).map fun p => (p.1, p.2.nodeId))

/-- `GenerateEAPoLLogoffFrame` copies `max_nodes` entries into an array of `UDSMaxNodes`. -/
def generateEAPoLLogoffFrame (assignedNodeId : Nat) (nodes : List NodeInfo) (maxNodes totalNodes : Nat) :
    Except Fault Action :=
  if udsMaxNodes < maxNodes ∨ nodes.length < maxNodes then .error .outOfBounds
  else .ok (.broadcastEAPoLLogoff assignedNodeId (nodes.take maxNodes) maxNodes totalNodes)

/-- The first free node id goes to the client with address `mac`. -/
def connectClient (s : Uds) (mac : MacAddress) (node : NodeInfo) (nodeId : Nat) : Except Fault Uds :=
  if h : nodeId - 1 < udsMaxNodes ∧ nodeId - 1 < s.nodeInfo.length then
    .ok { s with
      connectionStatus := { s.connectionStatus with
        nodeBitmask := s.connectionStatus.nodeBitmask ||| bit (nodeId - 1)
        changedNodes := s.connectionStatus.changedNodes ||| bit (nodeId - 1)
        nodes := s.connectionStatus.nodes.set (nodeId - 1) nodeId h.1
        totalNodes := (s.connectionStatus.totalNodes + 1) % 2 ^ 8 }
      nodeInfo := s.nodeInfo.set (nodeId - 1) { node with networkNodeId := nodeId }
      networkInfo := { s.networkInfo with totalNodes := (s.networkInfo.totalNodes + 1) % 2 ^ 8 }
      nodeMap := s.nodeMap.modify mac fun _ => { connected := true, spec := false, nodeId } }
  else .error .outOfBounds

def connectSpectator (s : Uds) (mac : MacAddress) : Uds :=
  { s with nodeMap := s.nodeMap.modify mac fun _ => { connected := true, spec := true, nodeId := nodeIDSpec } }

/-- The host takes in a client that is in `node_map` and not connected. -/
def acceptNode (s : Uds) (mac : MacAddress) (connectionType : UInt8) (node : NodeInfo) :
    Except Fault (Uds × List Action) :=
  if s.connectionStatus.maxNodes = s.connectionStatus.totalNodes then .error .maxNodesReached
  else if connectionType ≠ connectionTypeSpectator then do
    let nodeId ← getNextAvailableNodeId s.connectionStatus
    let s' ← connectClient s mac node nodeId
    let logoff ← generateEAPoLLogoffFrame nodeId s'.nodeInfo s'.networkInfo.maxNodes s'.networkInfo.totalNodes
    .ok (s', [broadcastNodeMap s', logoff, .signalConnectionStatus])
  else do
    let s' := connectSpectator s mac
    let logoff ← generateEAPoLLogoffFrame node.networkNodeId s'.nodeInfo s'.networkInfo.maxNodes
      s'.networkInfo.totalNodes
    .ok (s', [logoff, .signalConnectionStatus])

def handleEAPoLPacket (s : Uds) (mac : MacAddress) (connectionType : UInt8) (node : NodeInfo) :
    Except Fault (Uds × List Action) :=
  if s.connectionStatus.status ≠ .connectedAsHost then .ok (s, [])
  else match s.nodeMap.get? mac with
    | none => .ok (s, [])
    | some entry => if entry.connected then .ok (s, []) else acceptNode s mac connectionType node

def handleAuthenticationFrame (s : Uds) (mac : MacAddress) (seq : AuthenticationSeq) : Uds × List Action :=
  if seq ≠ .seq1 then (s, [])
  else if s.connectionStatus.status ≠ .connectedAsHost then (s, [])
  else if (s.nodeMap.get? mac).isSome then (s, [])
  else if s.connectionStatus.maxNodes = s.connectionStatus.totalNodes then (s, [])
  else ({ s with nodeMap := s.nodeMap.emplace mac {} }, [.sendAuthentication mac .seq2, .sendAssociationResponse mac])

/-- The slot of a client that was connected as `node` is free again. -/
def disconnectClient (s : Uds) (node : Node) : Except Fault Uds :=
  if h : 0 < node.nodeId ∧ node.nodeId - 1 < udsMaxNodes then
    .ok { s with
      connectionStatus := { s.connectionStatus with
        nodeBitmask := s.connectionStatus.nodeBitmask &&& ~~~ bit (node.nodeId - 1)
        changedNodes := s.connectionStatus.changedNodes ||| bit (node.nodeId - 1)
        totalNodes := (s.connectionStatus.totalNodes + (2 ^ 8 - 1)) % 2 ^ 8
        nodes := s.connectionStatus.nodes.set (node.nodeId - 1) 0 h.2 }
      networkInfo := { s.networkInfo with totalNodes := (s.networkInfo.totalNodes + (2 ^ 8 - 1)) % 2 ^ 8 } }
  else .error .outOfBounds

def handleDeauthenticationFrame (s : Uds) (mac : MacAddress) : Except Fault (Uds × List Action) :=
  if s.connectionStatus.status ≠ .connectedAsHost then .ok (s, [])
  else match s.nodeMap.get? mac with
    | none => .ok (s, [])
    | some node =>
      let erased := { s with nodeMap := s.nodeMap.erase mac }
      if !node.connected then .ok (erased, [])
      else match s.nodeInfo.findIdx? fun info => info.networkNodeId = node.nodeId with
        | none => .ok (erased, [])
        | some index => do
          let s' ← if node.spec then .ok erased else disconnectClient erased node
          .ok ({ s' with nodeInfo := s'.nodeInfo.modify index NodeInfo.reset }, [.signalConnectionStatus])

def onWifiPacketReceived (s : Uds) (mac : MacAddress) (frame : Frame) : Except Fault (Uds × List Action) :=
  if !s.initialized then .ok (s, [])
  else match frame with
    | .authentication seq => .ok (handleAuthenticationFrame s mac seq)
    | .eapolStart connectionType node => handleEAPoLPacket s mac connectionType node
    | .deauthentication => handleDeauthenticationFrame s mac

def beginHostingNetwork (s : Uds) (maxNodes : UInt8) : Except Fault Uds :=
  if maxNodes.toNat ≤ 1 then .error .onlyOneMember
  else
    let currentNode := { s.currentNode with networkNodeId := 1 }
    .ok { s with
      connectionStatus := { s.connectionStatus with
        status := .connectedAsHost
        maxNodes := maxNodes.toNat
        totalNodes := 1
        networkNodeId := 1
        nodes := s.connectionStatus.nodes.set 0 1
        nodeBitmask := s.connectionStatus.nodeBitmask ||| 1
        changedNodes := s.connectionStatus.changedNodes ||| 1 }
      networkInfo := { maxNodes := maxNodes.toNat, totalNodes := 1 }
      currentNode
      nodeInfo := (List.replicate maxNodes.toNat {}).set 0 currentNode }

end SweepDSEmu.Service.NWM
