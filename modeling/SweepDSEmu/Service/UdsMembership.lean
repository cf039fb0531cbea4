import SweepDSEmu.Service.NwmUds
import Mathlib.Data.Finset.Card
import Mathlib.Data.Nat.Bitwise

/-!
# Membership of a hosted network

The host admits a client when it authenticates and gives it a slot only when its EAPoL-Start arrives.  In every run in
which no EAPoL-Start is accepted while the network is full, the four records of membership (the bit mask, the counts,
`nodes` with `node_info`, and `node_map`) agree, and no assertion fails.

`Hosting` is the invariant.  Only two things happen to the slots: a free one is taken (`Hosting.connectClient`), or one
is freed (`Hosting.disconnectClient`); every other frame leaves the connected clients as they are (`Hosting.congr`).
-/

namespace SweepDSEmu.Service.NWM

def setBits (mask : BitVec 16) : Finset ℕ := (Finset.range 16).filter fun i => mask.getLsbD i = true

/-- The client with address `mac` is connected, not as a spectator, and its node id is `id`. -/
def Connected (nodeMap : OrderedMap MacAddress Node) (mac : MacAddress) (id : Nat) : Prop :=
  nodeMap.get? mac = some { connected := true, spec := false, nodeId := id }

structure HostMembership (s : Uds) : Prop where
  total : s.connectionStatus.totalNodes = (setBits s.connectionStatus.nodeBitmask).card
  networkTotal : s.networkInfo.totalNodes = (setBits s.connectionStatus.nodeBitmask).card
  total_le : s.connectionStatus.totalNodes ≤ s.connectionStatus.maxNodes
  client : ∀ mac id, Connected s.nodeMap mac id → 2 ≤ id ∧ id ≤ s.connectionStatus.maxNodes ∧
    id - 1 ∈ setBits s.connectionStatus.nodeBitmask ∧ s.connectionStatus.nodes[id - 1]? = some id ∧
    (s.nodeInfo[id - 1]?).map NodeInfo.networkNodeId = some id
  distinct : ∀ mac mac' id, Connected s.nodeMap mac id → Connected s.nodeMap mac' id → mac = mac'
  bits : ∀ i, i ∈ setBits s.connectionStatus.nodeBitmask ↔ i = 0 ∨ ∃ mac, Connected s.nodeMap mac (i + 1)

structure Idle (s : Uds) : Prop where
  initialized : s.initialized = true
  nodeBitmask : s.connectionStatus.nodeBitmask = 0
  nodeMap : s.nodeMap = []

/-- The frame is not an EAPoL-Start for which the host has no room. -/
def HasRoom (s : Uds) (mac : MacAddress) : Frame → Prop
  | .eapolStart _ _ => (∃ node, s.nodeMap.get? mac = some node ∧ node.connected = false) →
      s.connectionStatus.maxNodes ≠ s.connectionStatus.totalNodes ∧ s.connectionStatus.maxNodes ≤ udsMaxNodes
  | _ => True

/-- The states of a host that has room for every client whose EAPoL-Start arrives. -/
inductive Run : Uds → Prop where
  | host {s s' : Uds} (maxNodes : UInt8) : Idle s → beginHostingNetwork s maxNodes = .ok s' → Run s'
  | frame {s s' : Uds} {actions : List Action} (mac : MacAddress) (frame : Frame) : Run s → HasRoom s mac frame →
    onWifiPacketReceived s mac frame = .ok (s', actions) → Run s'

variable {mask : BitVec 16}

@[simp]
theorem mem_setBits {i : ℕ} : i ∈ setBits mask ↔ mask.getLsbD i = true := by
  unfold setBits
  rw [Finset.mem_filter, Finset.mem_range]
  constructor
  · exact And.right
  · intro h
    exact ⟨BitVec.lt_of_getLsbD h, h⟩

theorem getLsbD_bit {i j : ℕ} (hi : i < udsMaxNodes) : (bit i).getLsbD j = decide (j = i) := by
  unfold bit udsMaxNodes at *
  rw [Bool.eq_iff_iff]
  simp only [BitVec.getLsbD_shiftLeft, BitVec.getLsbD_one, Bool.and_eq_true, Bool.not_eq_true', decide_eq_true_eq,
    decide_eq_false_iff_not]
  omega

theorem setBits_or {i : ℕ} (hi : i < udsMaxNodes) : setBits (mask ||| bit i) = insert i (setBits mask) := by
  ext j
  simp only [mem_setBits, BitVec.getLsbD_or, getLsbD_bit hi, Bool.or_eq_true, decide_eq_true_eq, Finset.mem_insert]
  exact or_comm

theorem setBits_and_not {i : ℕ} (hi : i < udsMaxNodes) : setBits (mask &&& ~~~ bit i) = (setBits mask).erase i := by
  ext j
  simp only [mem_setBits, BitVec.getLsbD_and, BitVec.getLsbD_not, getLsbD_bit hi, Bool.and_eq_true, Finset.mem_erase,
    Bool.not_eq_true', decide_eq_true_eq, decide_eq_false_iff_not]
  constructor
  · rintro ⟨hj, -, hne⟩
    exact ⟨hne, hj⟩
  · rintro ⟨hne, hj⟩
    exact ⟨hj, BitVec.lt_of_getLsbD hj, hne⟩

theorem card_setBits_le (mask : BitVec 16) : (setBits mask).card ≤ 16 :=
  (Finset.card_filter_le _ _).trans_eq (Finset.card_range 16)

theorem and_shiftLeft_eq_zero {i : ℕ} : mask.toNat &&& 1 <<< i = 0 ↔ i ∉ setBits mask := by
  rw [mem_setBits, Nat.one_shiftLeft, Nat.and_two_pow]
  unfold BitVec.getLsbD
  cases mask.toNat.testBit i with
  | false => simp
  | true => simp

structure Hosting (s : Uds) : Prop where
  initialized : s.initialized = true
  status : s.connectionStatus.status = .connectedAsHost
  total : s.connectionStatus.totalNodes = (setBits s.connectionStatus.nodeBitmask).card
  networkTotal : s.networkInfo.totalNodes = (setBits s.connectionStatus.nodeBitmask).card
  infoLength : s.nodeInfo.length = s.connectionStatus.maxNodes
  infoMax : s.networkInfo.maxNodes = s.connectionStatus.maxNodes
  bit_lt : ∀ i ∈ setBits s.connectionStatus.nodeBitmask, i < s.connectionStatus.maxNodes
  bits : ∀ i, i ∈ setBits s.connectionStatus.nodeBitmask ↔ i = 0 ∨ ∃ mac, Connected s.nodeMap mac (i + 1)
  two_le : ∀ mac id, Connected s.nodeMap mac id → 2 ≤ id
  distinct : ∀ mac mac' id, Connected s.nodeMap mac id → Connected s.nodeMap mac' id → mac = mac'
  spectator : ∀ mac node, s.nodeMap.get? mac = some node → node.spec = true → node.nodeId = nodeIDSpec
  nodes : ∀ i ∈ setBits s.connectionStatus.nodeBitmask, s.connectionStatus.nodes[i]? = some (i + 1)
  info : ∀ i < s.connectionStatus.maxNodes, (s.nodeInfo[i]?).map NodeInfo.networkNodeId =
    some (if i ∈ setBits s.connectionStatus.nodeBitmask then i + 1 else 0)

namespace Hosting

variable {s : Uds}

theorem total_le (h : Hosting s) : (setBits s.connectionStatus.nodeBitmask).card ≤ s.connectionStatus.maxNodes := by
  have hsub : setBits s.connectionStatus.nodeBitmask ⊆ Finset.range s.connectionStatus.maxNodes := by
    intro i hi
    exact Finset.mem_range.mpr (h.bit_lt i hi)
  simpa using Finset.card_le_card hsub

variable {mac : MacAddress}

theorem slot (h : Hosting s) {id : Nat} (hc : Connected s.nodeMap mac id) :
    id - 1 ∈ setBits s.connectionStatus.nodeBitmask := by
  have hid := h.two_le mac id hc
  rw [h.bits, Nat.sub_add_cancel (by omega)]
  exact .inr ⟨mac, hc⟩

theorem hostMembership (h : Hosting s) : HostMembership s := by
  refine ⟨h.total, h.networkTotal, h.total ▸ h.total_le, ?_, h.distinct, h.bits⟩
  intro mac id hc
  have hid := h.two_le mac id hc
  have hslot := h.slot hc
  have hlt := h.bit_lt _ hslot
  have hnodes := h.nodes _ hslot
  have hinfo := h.info _ hlt
  rw [if_pos hslot] at hinfo
  rw [Nat.sub_add_cancel (by omega)] at hnodes hinfo
  exact ⟨hid, by omega, hslot, hnodes, hinfo⟩

/-- The connected clients and the spectators are all that the invariant reads of `node_map`. -/
theorem congr (h : Hosting s) {nodeMap : OrderedMap MacAddress Node}
    (hc : ∀ mac id, Connected nodeMap mac id ↔ Connected s.nodeMap mac id)
    (hspec : ∀ mac node, nodeMap.get? mac = some node → node.spec = true → node.nodeId = nodeIDSpec) :
    Hosting { s with nodeMap } := by
  refine ⟨h.initialized, h.status, h.total, h.networkTotal, h.infoLength, h.infoMax, h.bit_lt, ?_, ?_, ?_, hspec,
    h.nodes, h.info⟩
  · simpa only [hc] using h.bits
  · simpa only [hc] using h.two_le
  · simpa only [hc] using h.distinct

theorem getNextAvailableNodeId_spec (h : Hosting s)
    (hroom : s.connectionStatus.maxNodes ≠ s.connectionStatus.totalNodes) :
    ∃ i, getNextAvailableNodeId s.connectionStatus = .ok (i + 1) ∧ 0 < i ∧ i < s.connectionStatus.maxNodes ∧
      i ∉ setBits s.connectionStatus.nodeBitmask := by
  unfold getNextAvailableNodeId
  have hhost : 0 ∈ setBits s.connectionStatus.nodeBitmask := (h.bits 0).mpr (.inl rfl)
  cases hfind : (List.range s.connectionStatus.maxNodes).find? fun index =>
      s.connectionStatus.nodeBitmask.toNat &&& 1 <<< index = 0 with
  | none =>
    -- every slot would be taken, so the count would be the number of slots
    have hall : Finset.range s.connectionStatus.maxNodes ⊆ setBits s.connectionStatus.nodeBitmask := by
      intro i hi
      have hi : i ∈ List.range s.connectionStatus.maxNodes := by simpa using hi
      have hbit := List.find?_eq_none.mp hfind i hi
      rw [decide_eq_true_eq, and_shiftLeft_eq_zero, not_not] at hbit
      exact hbit
    have hcard := Finset.card_le_card hall
    rw [Finset.card_range] at hcard
    have hle := h.total_le
    have htotal := h.total
    omega
  | some i =>
    have hfree := List.find?_some hfind
    rw [decide_eq_true_eq, and_shiftLeft_eq_zero] at hfree
    have hlt : i < s.connectionStatus.maxNodes := by
      simpa using List.mem_of_find?_eq_some hfind
    have hpos : i ≠ 0 := by
      rintro rfl
      exact hfree hhost
    exact ⟨i, rfl, by omega, hlt, hfree⟩

private theorem connected_connect {nodeMap : OrderedMap MacAddress Node} {node : Node}
    (hnode : nodeMap.get? mac = some node) (hold : node.connected = false) (id : Nat) (mac' : MacAddress) (id' : Nat) :
    Connected (nodeMap.modify mac fun _ => { connected := true, spec := false, nodeId := id }) mac' id' ↔
      (mac' = mac ∧ id' = id) ∨ Connected nodeMap mac' id' := by
  unfold Connected
  rw [OrderedMap.get?_modify]
  by_cases hmac : mac' = mac
  · subst hmac
    have hne : node ≠ { connected := true, spec := false, nodeId := id' } := by
      rintro rfl
      cases hold
    simp [hnode, hne, eq_comm]
  · simp [hmac]

theorem connectClient (h : Hosting s) {node : Node} (hnode : s.nodeMap.get? mac = some node)
    (hold : node.connected = false) {i : Nat} (hpos : 0 < i) (hlt : i < s.connectionStatus.maxNodes)
    (hmax : i < udsMaxNodes) (hfree : i ∉ setBits s.connectionStatus.nodeBitmask) (info : NodeInfo) :
    ∃ s', NWM.connectClient s mac info (i + 1) = .ok s' ∧ Hosting s' ∧
      s'.connectionStatus.maxNodes = s.connectionStatus.maxNodes := by
  have hin : i < s.nodeInfo.length := h.infoLength ▸ hlt
  have hcard : (insert i (setBits s.connectionStatus.nodeBitmask)).card =
      (setBits s.connectionStatus.nodeBitmask).card + 1 := Finset.card_insert_of_notMem hfree
  have hle := card_setBits_le s.connectionStatus.nodeBitmask
  have hconn := connected_connect hnode hold (i + 1)
  unfold NWM.connectClient
  simp only [Nat.add_sub_cancel]
  rw [dif_pos ⟨hmax, hin⟩]
  refine ⟨_, rfl, ⟨h.initialized, h.status, ?_, ?_, ?_, h.infoMax, ?_, ?_, ?_, ?_, ?_, ?_, ?_⟩, rfl⟩
  all_goals dsimp only
  all_goals try rw [setBits_or hmax]
  · rw [hcard, h.total]
    omega
  · rw [hcard, h.networkTotal]
    omega
  · rw [List.length_set]
    exact h.infoLength
  · intro j hj
    rcases Finset.mem_insert.mp hj with rfl | hj
    · exact hlt
    · exact h.bit_lt j hj
  · intro j
    simp only [hconn, Finset.mem_insert, h.bits j, Nat.add_right_cancel_iff]
    constructor
    · rintro (rfl | hj | ⟨mac', hc⟩)
      · exact .inr ⟨mac, .inl ⟨rfl, rfl⟩⟩
      · exact .inl hj
      · exact .inr ⟨mac', .inr hc⟩
    · rintro (hj | ⟨mac', ⟨-, rfl⟩ | hc⟩)
      · exact .inr (.inl hj)
      · exact .inl rfl
      · exact .inr (.inr ⟨mac', hc⟩)
  · intro mac' id hc
    rcases (hconn mac' id).mp hc with ⟨-, rfl⟩ | hc
    · omega
    · exact h.two_le mac' id hc
  · intro mac₁ mac₂ id h₁ h₂
    -- the slot was free, so nobody else has this node id
    have hother : ∀ mac', ¬ Connected s.nodeMap mac' (i + 1) := fun mac' hc => hfree (h.slot hc)
    rcases (hconn mac₁ id).mp h₁ with ⟨h₁, hid₁⟩ | h₁
    · rcases (hconn mac₂ id).mp h₂ with ⟨h₂, -⟩ | h₂
      · exact h₁.trans h₂.symm
      · exact absurd (hid₁ ▸ h₂) (hother mac₂)
    · rcases (hconn mac₂ id).mp h₂ with ⟨-, hid₂⟩ | h₂
      · exact absurd (hid₂ ▸ h₁) (hother mac₁)
      · exact h.distinct mac₁ mac₂ id h₁ h₂
  · intro mac' node' hnode' hspec
    rw [OrderedMap.get?_modify] at hnode'
    split_ifs at hnode' with hmac
    · rw [hnode] at hnode'
      cases hnode'
      cases hspec
    · exact h.spectator mac' node' hnode' hspec
  · intro j hj
    rw [Vector.getElem?_set]
    split_ifs with hji
    · rw [hji]
    · exact h.nodes j ((Finset.mem_insert.mp hj).resolve_left fun h => hji h.symm)
  · intro j hj
    rw [List.getElem?_set]
    by_cases hji : i = j
    · subst hji
      simp [hin]
    · rw [if_neg hji, h.info j hj]
      simp [Ne.symm hji]

/-- The entry of `node_info` that a connected client has is the one that is found. -/
theorem findIdx_info (h : Hosting s) {id : Nat} (hc : Connected s.nodeMap mac id) :
    s.nodeInfo.findIdx? (fun info => info.networkNodeId = id) = some (id - 1) := by
  have hid := h.two_le mac id hc
  have hslot := h.slot hc
  have hlt := h.bit_lt _ hslot
  have hlen : id - 1 < s.nodeInfo.length := h.infoLength ▸ hlt
  have hentry : ∀ j (hj : j < s.nodeInfo.length), (s.nodeInfo[j]).networkNodeId =
      if j ∈ setBits s.connectionStatus.nodeBitmask then j + 1 else 0 := by
    intro j hj
    have hinfo := h.info j (h.infoLength ▸ hj)
    rw [List.getElem?_eq_getElem hj] at hinfo
    simpa using hinfo
  rw [List.findIdx?_eq_some_iff_getElem]
  refine ⟨hlen, ?_, ?_⟩
  · rw [decide_eq_true_eq, hentry _ hlen, if_pos hslot]
    omega
  · intro j hj
    rw [decide_eq_true_eq, hentry j (by omega)]
    split_ifs
    · omega
    · omega

private theorem connected_erase (nodeMap : OrderedMap MacAddress Node) (mac mac' : MacAddress) (id : Nat) :
    Connected (nodeMap.erase mac) mac' id ↔ mac' ≠ mac ∧ Connected nodeMap mac' id := by
  unfold Connected
  rw [OrderedMap.get?_erase]
  by_cases hmac : mac' = mac
  · simp [hmac]
  · simp [hmac]

private theorem spectator_erase (h : Hosting s) (mac' : MacAddress) (node : Node)
    (hnode : (s.nodeMap.erase mac).get? mac' = some node) (hspec : node.spec = true) : node.nodeId = nodeIDSpec := by
  rw [OrderedMap.get?_erase] at hnode
  split_ifs at hnode
  exact h.spectator mac' node hnode hspec

theorem resetFree (h : Hosting s) {index : Nat}
    (hfind : s.nodeInfo.findIdx? (fun info => info.networkNodeId = nodeIDSpec) = some index) :
    Hosting { s with nodeInfo := s.nodeInfo.modify index NodeInfo.reset } := by
  obtain ⟨hindex, hzero, -⟩ := List.findIdx?_eq_some_iff_getElem.mp hfind
  refine ⟨h.initialized, h.status, h.total, h.networkTotal, ?_, h.infoMax, h.bit_lt, h.bits, h.two_le, h.distinct,
    h.spectator, h.nodes, ?_⟩
  · rw [List.length_modify]
    exact h.infoLength
  · intro j hj
    rw [← h.info j hj]
    by_cases hji : index = j
    · subst hji
      have hzero : (s.nodeInfo[index]).networkNodeId = 0 := of_decide_eq_true hzero
      simp [hindex, hzero, NodeInfo.reset]
    · simp [hji]

theorem disconnectClient (h : Hosting s) {id : Nat} (hc : Connected s.nodeMap mac id) :
    ∃ s', NWM.disconnectClient { s with nodeMap := s.nodeMap.erase mac }
        { connected := true, spec := false, nodeId := id } = .ok s' ∧
      Hosting { s' with nodeInfo := s'.nodeInfo.modify (id - 1) NodeInfo.reset } := by
  have hid := h.two_le mac id hc
  have hslot := h.slot hc
  have hmax : id - 1 < udsMaxNodes := BitVec.lt_of_getLsbD (mem_setBits.mp hslot)
  have hcard : ((setBits s.connectionStatus.nodeBitmask).erase (id - 1)).card + 1 =
      (setBits s.connectionStatus.nodeBitmask).card := Finset.card_erase_add_one hslot
  have hle := card_setBits_le s.connectionStatus.nodeBitmask
  have hconn := connected_erase s.nodeMap mac
  unfold NWM.disconnectClient
  have hcond : 0 < id ∧ id - 1 < udsMaxNodes := ⟨by omega, hmax⟩
  rw [dif_pos hcond]
  refine ⟨_, rfl, h.initialized, h.status, ?_, ?_, ?_, h.infoMax, ?_, ?_, ?_, ?_, h.spectator_erase, ?_, ?_⟩
  all_goals dsimp only
  all_goals try rw [setBits_and_not hmax]
  · rw [h.total]
    omega
  · rw [h.networkTotal]
    omega
  · rw [List.length_modify]
    exact h.infoLength
  · intro j hj
    exact h.bit_lt j (Finset.mem_of_mem_erase hj)
  · intro j
    simp only [hconn, Finset.mem_erase, h.bits j]
    constructor
    · rintro ⟨hne, hj | ⟨mac', hc'⟩⟩
      · exact .inl hj
      · refine .inr ⟨mac', ?_, hc'⟩
        rintro rfl
        have heq : id = j + 1 := by
          simpa using congrArg (Option.map Node.nodeId) (hc.symm.trans hc')
        omega
    · rintro (hj | ⟨mac', hne, hc'⟩)
      · exact ⟨by omega, .inl hj⟩
      · refine ⟨?_, .inr ⟨mac', hc'⟩⟩
        rintro rfl
        rw [Nat.sub_add_cancel (by omega)] at hc'
        exact hne (h.distinct _ _ _ hc' hc)
  · intro mac' id' hc'
    exact h.two_le mac' id' ((hconn mac' id').mp hc').2
  · intro mac₁ mac₂ id' h₁ h₂
    exact h.distinct mac₁ mac₂ id' ((hconn mac₁ id').mp h₁).2 ((hconn mac₂ id').mp h₂).2
  · intro j hj
    rw [Vector.getElem?_set, if_neg fun h => Finset.ne_of_mem_erase hj h.symm]
    exact h.nodes j (Finset.mem_of_mem_erase hj)
  · intro j hj
    have hinfo := h.info j hj
    by_cases hji : id - 1 = j
    · subst hji
      have hin : id - 1 < s.nodeInfo.length := h.infoLength ▸ hj
      simp [hin, NodeInfo.reset]
    · have hne : (s.nodeInfo.modify (id - 1) NodeInfo.reset)[j]? = s.nodeInfo[j]? := by
        simp [hji]
      rw [hne, hinfo]
      simp [Ne.symm hji]

theorem handleAuthenticationFrame (h : Hosting s) (mac : MacAddress) (seq : AuthenticationSeq) :
    Hosting (NWM.handleAuthenticationFrame s mac seq).1 := by
  unfold NWM.handleAuthenticationFrame
  split_ifs with _ _ hnew
  · exact h
  · exact h
  · exact h
  · exact h
  · -- the new entry is not connected
    have hnone : s.nodeMap.get? mac = none := by simpa using hnew
    apply h.congr
    · intro mac' id
      unfold Connected
      rw [OrderedMap.get?_emplace]
      by_cases hmac : mac' = mac
      · simp [hmac, hnone]
      · rw [if_neg hmac]
    · intro mac' node hnode hspec
      rw [OrderedMap.get?_emplace, hnone] at hnode
      split_ifs at hnode with hmac
      · cases hnode
        cases hspec
      · exact h.spectator mac' node hnode hspec

theorem acceptNode (h : Hosting s) {node : Node} (hnode : s.nodeMap.get? mac = some node)
    (hold : node.connected = false) (hroom : s.connectionStatus.maxNodes ≠ s.connectionStatus.totalNodes)
    (hmax : s.connectionStatus.maxNodes ≤ udsMaxNodes) (connectionType : UInt8) (info : NodeInfo) :
    ∃ r, NWM.acceptNode s mac connectionType info = .ok r ∧ Hosting r.1 := by
  unfold NWM.acceptNode
  rw [if_neg hroom]
  have hlogoff : ∀ (s' : Uds) (assigned : Nat), Hosting s' → s'.connectionStatus.maxNodes ≤ udsMaxNodes →
      ∃ a, generateEAPoLLogoffFrame assigned s'.nodeInfo s'.networkInfo.maxNodes s'.networkInfo.totalNodes = .ok a := by
    intro s' assigned h' hmax'
    have hlen := h'.infoLength
    have hinfo := h'.infoMax
    exact ⟨_, if_neg (by omega)⟩
  split_ifs with htype
  · obtain ⟨i, hid, hpos, hlt, hfree⟩ := h.getNextAvailableNodeId_spec hroom
    obtain ⟨s', hs', h', hmax'⟩ := h.connectClient hnode hold hpos hlt (hlt.trans_le hmax) hfree info
    obtain ⟨a, ha⟩ := hlogoff s' (i + 1) h' (hmax' ▸ hmax)
    refine ⟨(s', [broadcastNodeMap s', a, .signalConnectionStatus]), ?_, h'⟩
    simp only [hid, hs', ha, bind, Except.bind]
  · have h' : Hosting (connectSpectator s mac) := by
      apply h.congr
      · intro mac' id
        unfold Connected
        rw [OrderedMap.get?_modify]
        by_cases hmac : mac' = mac
        · have hne : node ≠ { connected := true, spec := false, nodeId := id } := by
            rintro rfl
            cases hold
          simp [hmac, hnode, hne]
        · rw [if_neg hmac]
      · intro mac' node' hnode' hspec
        rw [OrderedMap.get?_modify, hnode] at hnode'
        split_ifs at hnode' with hmac
        · cases hnode'
          rfl
        · exact h.spectator mac' node' hnode' hspec
    obtain ⟨a, ha⟩ := hlogoff (connectSpectator s mac) info.networkNodeId h' hmax
    refine ⟨(connectSpectator s mac, [a, .signalConnectionStatus]), ?_, h'⟩
    simp only [ha, bind, Except.bind]

theorem handleDeauthenticationFrame (h : Hosting s) (mac : MacAddress) :
    ∃ r, NWM.handleDeauthenticationFrame s mac = .ok r ∧ Hosting r.1 := by
  unfold NWM.handleDeauthenticationFrame
  rw [if_neg (not_not.mpr h.status)]
  cases hnode : s.nodeMap.get? mac with
  | none => exact ⟨_, rfl, h⟩
  | some node =>
    obtain ⟨connected, spec, id⟩ := node
    -- who is not connected as a client does not hold a slot
    have hkeep : ¬ (connected = true ∧ spec = false) → Hosting { s with nodeMap := s.nodeMap.erase mac } := by
      intro hno
      refine h.congr ?_ h.spectator_erase
      intro mac' id'
      rw [connected_erase]
      refine ⟨And.right, fun hc => ⟨?_, hc⟩⟩
      rintro rfl
      have heq := Option.some.inj (hnode.symm.trans hc)
      rw [Node.mk.injEq] at heq
      exact hno ⟨heq.1, heq.2.1⟩
    cases connected with
    | false => exact ⟨_, rfl, hkeep (by simp)⟩
    | true =>
      cases spec with
      | false =>
        obtain ⟨s', hs', h'⟩ := h.disconnectClient hnode
        refine ⟨(_, [.signalConnectionStatus]), ?_, h'⟩
        simp only [h.findIdx_info hnode, hs', bind, Except.bind]
        rfl
      | true =>
        have h' := hkeep (by simp)
        obtain rfl : id = nodeIDSpec := h.spectator mac _ hnode rfl
        dsimp only
        cases hfind : s.nodeInfo.findIdx? fun info => info.networkNodeId = nodeIDSpec with
        | none => exact ⟨_, rfl, h'⟩
        | some index => exact ⟨_, rfl, h'.resetFree hfind⟩

theorem onWifiPacketReceived (h : Hosting s) {frame : Frame} (hroom : HasRoom s mac frame) :
    ∃ r, NWM.onWifiPacketReceived s mac frame = .ok r ∧ Hosting r.1 := by
  unfold NWM.onWifiPacketReceived
  rw [if_neg (by simp [h.initialized])]
  cases frame with
  | authentication seq => exact ⟨_, rfl, h.handleAuthenticationFrame mac seq⟩
  | eapolStart connectionType info =>
    dsimp only
    unfold handleEAPoLPacket
    rw [if_neg (not_not.mpr h.status)]
    cases hnode : s.nodeMap.get? mac with
    | none => exact ⟨_, rfl, h⟩
    | some node =>
      dsimp only
      split_ifs with hconnected
      · exact ⟨_, rfl, h⟩
      · have hold : node.connected = false := by simpa using hconnected
        obtain ⟨hfull, hmax⟩ := hroom ⟨node, hnode, hold⟩
        exact h.acceptNode hnode hold hfull hmax connectionType info
  | deauthentication => exact h.handleDeauthenticationFrame mac

theorem beginHostingNetwork {s' : Uds} {maxNodes : UInt8} (hidle : Idle s)
    (h : NWM.beginHostingNetwork s maxNodes = .ok s') : Hosting s' := by
  unfold NWM.beginHostingNetwork at h
  split_ifs at h with hmax
  cases h
  have hbits : setBits (s.connectionStatus.nodeBitmask ||| 1) = {0} := by
    rw [hidle.nodeBitmask]
    decide
  have hnone : ∀ mac id, ¬ Connected s.nodeMap mac id := by
    intro mac id hc
    rw [hidle.nodeMap] at hc
    cases hc
  refine ⟨hidle.initialized, rfl, ?_, ?_, ?_, rfl, ?_, ?_, ?_, ?_, ?_, ?_, ?_⟩
  all_goals dsimp only
  all_goals try rw [hbits]
  · rfl
  · rfl
  · simp
  · intro i hi
    rw [Finset.mem_singleton.mp hi]
    omega
  · intro i
    simp [hnone]
  · intro mac id hc
    exact absurd hc (hnone mac id)
  · intro mac mac' id hc
    exact absurd hc (hnone mac id)
  · intro mac node hnode
    rw [hidle.nodeMap] at hnode
    cases hnode
  · intro i hi
    rw [Finset.mem_singleton.mp hi]
    simp
  · intro i hi
    by_cases h0 : 0 = i
    · subst h0
      simp [hi]
    · simp [h0, Ne.symm h0, hi]

end Hosting

theorem Run.hosting {s : Uds} (h : Run s) : Hosting s := by
  induction h with
  | host maxNodes hidle hs' => exact Hosting.beginHostingNetwork hidle hs'
  | frame mac frame _ hroom hs' ih =>
    obtain ⟨r, hr, h'⟩ := ih.onWifiPacketReceived hroom
    rw [hr] at hs'
    cases hs'
    exact h'

/-- As long as the host has room for every client whose EAPoL-Start arrives, the records of membership agree, and the
next such frame is handled without a failing assertion. -/
theorem run_hostMembership {s : Uds} (h : Run s) :
    HostMembership s ∧ ∀ mac frame, HasRoom s mac frame → ∃ r, onWifiPacketReceived s mac frame = .ok r := by
  refine ⟨h.hosting.hostMembership, ?_⟩
  intro mac frame hroom
  obtain ⟨r, hr, -⟩ := h.hosting.onWifiPacketReceived hroom
  exact ⟨r, hr⟩

/-- A network of two, with one client. -/
theorem oneClient_hostMembership : ∃ s, Connected s.nodeMap 1 2 ∧ HostMembership s := by
  have h₀ : Run _ := Run.host 2 (s := {}) ⟨rfl, rfl, rfl⟩ rfl
  have h₁ : Run _ := h₀.frame 1 (.authentication .seq1) trivial rfl
  have h₂ : Run _ := h₁.frame 1 (.eapolStart 1 {}) (fun _ => by decide) rfl
  refine ⟨_, ?_, (run_hostMembership h₂).1⟩
  rfl

def receiveAll (s : Uds) : List (MacAddress × Frame) → Except Fault Uds
  | [] => .ok s
  | (mac, frame) :: frames => do
    let (s', _) ← onWifiPacketReceived s mac frame
    receiveAll s' frames

/-- Two clients authenticate while one slot is free, and the second EAPoL-Start finds the network full. -/
theorem lateStart_maxNodesReached :
    (beginHostingNetwork {} 2 >>= fun s => receiveAll s
      [(1, .authentication .seq1), (2, .authentication .seq1), (1, .eapolStart 1 {}), (2, .eapolStart 1 {})]) =
      .error .maxNodesReached := by
  rfl

end SweepDSEmu.Service.NWM
