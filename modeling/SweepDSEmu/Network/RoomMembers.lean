import SweepDSEmu.Network.Room
import SweepDSEmu.Lib.Outcome
import Mathlib.Data.List.Nodup

/-!
# Membership of a room

In every run in which nobody joins twice, no two members share a nickname, a MAC address, a console or a peer, the room
is never overfull, whoever leaves is gone, and nobody who is banned joins.

What a turn of the server loop does to the members is said once, in `serverLoop_members`: a member that was admitted is
added, or one entry is erased, or nobody comes or goes.
-/

namespace SweepDSEmu.Network.Room

variable {loadUserData : Bytes → Bytes → UserData} {room : Room}

/-- The turn admits nobody whose peer is a member already. -/
def FreshJoin (loadUserData : Bytes → Bytes → UserData) (room : Room) : Event → Prop
  | .receive peer data uninit draws => data.head? = some 1 →
      ∀ m, room.joinedMember loadUserData peer data uninit draws = .ok m → ∀ m' ∈ room.members, m'.peer ≠ peer
  | _ => True

/-- The runs of a room in which every turn is a `FreshJoin`, with everything that has been sent. -/
inductive Run (loadUserData : Bytes → Bytes → UserData) : Room → List Action → Prop where
  | create (maxConnections : Nat) (hostUsername password : Bytes) (usernameBanList ipBanList : List Bytes) :
    Run loadUserData (Room.create maxConnections hostUsername password usernameBanList ipBanList) []
  | step {room : Room} {log : List Action} (event : Event) : Run loadUserData room log →
    FreshJoin loadUserData room event →
    Run loadUserData (room.serverLoop loadUserData event).1 (log ++ (room.serverLoop loadUserData event).2)

structure MembersOk (room : Room) : Prop where
  nicknames : (room.members.map Member.nickname).Nodup
  macAddresses : (room.members.map Member.macAddress).Nodup
  consoleIds : (room.members.map Member.consoleIdHash).Nodup
  peers : (room.members.map Member.peer).Nodup
  slots : room.members.length ≤ room.memberSlots

/-- Whoever leaves is gone, and whoever comes is not banned. -/
structure TurnOk (loadUserData : Bytes → Bytes → UserData) (room : Room) (event : Event) : Prop where
  disconnected : ∀ peer, event = .disconnect peer → ∀ m ∈ (room.serverLoop loadUserData event).1.members, m.peer ≠ peer
  removed : ∀ m ∈ room.members, m.nickname ∉ (room.serverLoop loadUserData event).1.members.map Member.nickname →
    m.peer ∉ (room.serverLoop loadUserData event).1.members.map Member.peer
  joined : ∀ m ∈ (room.serverLoop loadUserData event).1.members, m.nickname ∉ room.members.map Member.nickname →
    room.address m.peer ∉ room.ipBanList ∧ (m.userData.username ≠ [] → m.userData.username ∉ room.usernameBanList)

def identity (m : Member) : Member := { m with gameInfo := {}, zipPassData := none }

/-- What the checks of a join request establish. -/
structure Admitted (room : Room) (peer : Peer) (m : Member) : Prop where
  peer_eq : m.peer = peer
  data_eq : m.zipPassData = none
  slot : room.members.length < room.memberSlots
  nickname : ∀ m' ∈ room.members, m'.nickname ≠ m.nickname
  macAddress : ∀ m' ∈ room.members, m'.macAddress ≠ m.macAddress
  consoleId : ∀ m' ∈ room.members, m'.consoleIdHash ≠ m.consoleIdHash
  username : m.userData.username ≠ [] → m.userData.username ∉ room.usernameBanList
  ip : room.address peer ∉ room.ipBanList

theorem isValidMacAddress_iff {mac : MacAddress} :
    room.isValidMacAddress mac = true ↔ ∀ m ∈ room.members, m.macAddress ≠ mac := by
  simp [isValidMacAddress]

theorem chooseMac_free {preferred mac : MacAddress} {draws : List Bytes}
    (h : room.chooseMac preferred draws = .ok mac) : ∀ m ∈ room.members, m.macAddress ≠ mac := by
  rw [← isValidMacAddress_iff]
  unfold chooseMac at h
  split at h
  · split at h
    · cases h
      assumption
    · cases h
  · split at h
    · rename_i hmac
      cases h
      exact List.find?_some hmac
    · cases h

private theorem of_check {ε α : Type} {c : Prop} [Decidable c] {e : ε} {x : Except ε α} {a : α}
    (h : (if c then .error e else x) = Except.ok a) : ¬ c ∧ x = .ok a := by
  by_cases hc : c
  · rw [if_pos hc] at h
    cases h
  · rw [if_neg hc] at h
    exact ⟨hc, h⟩

private theorem joinedMemberWith_spec {peer : Peer} {request : JoinRequest} {mac : MacAddress} {m : Member}
    (h : room.joinedMemberWith loadUserData peer request mac = .ok m) :
    m.peer = peer ∧ m.zipPassData = none ∧ m.nickname = request.nickname ∧ m.macAddress = mac ∧
      room.isValidConsoleId m.consoleIdHash = true ∧
      (m.userData.username ≠ [] → m.userData.username ∉ room.usernameBanList) ∧
      room.address peer ∉ room.ipBanList := by
  obtain ⟨hconsole, h⟩ := of_check h
  obtain ⟨-, h⟩ := of_check h
  obtain ⟨huser, h⟩ := of_check h
  obtain ⟨hip, h⟩ := of_check h
  cases h
  exact ⟨rfl, rfl, rfl, rfl, by simpa using hconsole, fun h1 h2 => huser ⟨h1, h2⟩, hip⟩

theorem joinedMember_spec {peer : Peer} {data : Bytes} {uninit : List UInt8} {draws : List Bytes} {m : Member}
    (h : room.joinedMember loadUserData peer data uninit draws = .ok m) : Admitted room peer m := by
  generalize JoinRequest.read data uninit = request at h
  obtain ⟨hslot, h⟩ := of_check h
  obtain ⟨-, h⟩ := of_check h
  obtain ⟨hnick, h⟩ := of_check h
  obtain ⟨mac, hmac, h⟩ := ok_of_bind h
  obtain ⟨hpeer, hdata, hname, hm, hconsole, huser, hip⟩ := joinedMemberWith_spec h
  refine ⟨hpeer, hdata, Nat.lt_of_not_le hslot, ?_, hm ▸ chooseMac_free hmac, ?_, huser, hip⟩
  · simp only [Bool.not_eq_false, isValidNickname, Bool.and_eq_true, List.all_eq_true, bne_iff_ne, ne_eq] at hnick
    exact hname ▸ hnick.2
  · simpa [isValidConsoleId] using hconsole

private theorem map_identity_replaceF {f : Member → Option Member}
    (hf : ∀ m m', f m = some m' → identity m' = identity m) (l : List Member) :
    (l.replaceF f).map identity = l.map identity := by
  induction l with
  | nil => rfl
  | cons m l ih =>
    unfold List.replaceF
    cases hm : f m with
    | none => simp [ih]
    | some m' => simp [hf m m' hm]

theorem serverLoop_members (loadUserData : Bytes → Bytes → UserData) (room : Room) (event : Event) :
    (∃ peer data uninit draws m, event = .receive peer data uninit draws ∧ data.head? = some 1 ∧
      room.joinedMember loadUserData peer data uninit draws = .ok m ∧
      (room.serverLoop loadUserData event).1.members = room.members ++ [m]) ∨
    (∃ peer, event = .disconnect peer ∧
      (room.serverLoop loadUserData event).1.members = room.members.eraseP fun m => m.peer == peer) ∨
    (∃ nickname, (room.serverLoop loadUserData event).1.members = room.members.eraseP fun m => m.nickname == nickname) ∨
    (room.serverLoop loadUserData event).1.members.map identity = room.members.map identity := by
  cases event with
  | setVerifyUID uid => exact .inr (.inr (.inr rfl))
  | connect peer ip => exact .inr (.inr (.inr rfl))
  | disconnect peer => exact .inr (.inl ⟨peer, rfl, rfl⟩)
  | receive peer data uninit draws =>
    change (∃ _ _ _ _ m, _ ∧ _ ∧ _ ∧ (room.handlePacket loadUserData peer data uninit draws).1.members = _ ++ [m]) ∨
      (∃ _, _ ∧ (room.handlePacket loadUserData peer data uninit draws).1.members = _) ∨
      (∃ _, (room.handlePacket loadUserData peer data uninit draws).1.members = _) ∨
      (room.handlePacket loadUserData peer data uninit draws).1.members.map identity = _
    unfold handlePacket
    split
    · rename_i hhead
      unfold handleJoinRequest
      split
      · exact .inr (.inr (.inr rfl))
      · exact .inr (.inr (.inr rfl))
      · rename_i m hm
        exact .inl ⟨peer, data, uninit, draws, m, rfl, hhead, hm, rfl⟩
    · refine .inr (.inr (.inr (map_identity_replaceF ?_ _)))
      intro m m' hm
      split at hm <;> cases hm
      rfl
    · unfold handleModKickPacket
      split
      · exact .inr (.inr (.inr rfl))
      · dsimp only
        split
        · exact .inr (.inr (.inr rfl))
        · exact .inr (.inr (.inl ⟨_, rfl⟩))
    · unfold handleModBanPacket
      split
      · exact .inr (.inr (.inr rfl))
      · dsimp only
        split
        · exact .inr (.inr (.inr rfl))
        · exact .inr (.inr (.inl ⟨_, rfl⟩))
    · unfold handleModUnbanPacket
      split
      · exact .inr (.inr (.inr rfl))
      · dsimp only
        split <;> exact .inr (.inr (.inr rfl))
    · unfold handleModGetBanListPacket
      split <;> exact .inr (.inr (.inr rfl))
    · unfold handleAzaharPlusPecificPacket
      split
      · exact .inr (.inr (.inr rfl))
      · split
        · exact .inr (.inr (.inr rfl))
        · split
          · exact .inr (.inr (.inr rfl))
          · refine .inr (.inr (.inr (map_identity_replaceF ?_ _)))
            intro m m' hm
            split at hm <;> cases hm
            rfl
    · exact .inr (.inr (.inr rfl))

theorem serverLoop_memberSlots (loadUserData : Bytes → Bytes → UserData) (room : Room) (event : Event) :
    (room.serverLoop loadUserData event).1.memberSlots = room.memberSlots := by
  cases event with
  | setVerifyUID uid => rfl
  | connect peer ip => rfl
  | disconnect peer => rfl
  | receive peer data uninit draws =>
    change (room.handlePacket loadUserData peer data uninit draws).1.memberSlots = _
    unfold handlePacket handleJoinRequest handleModKickPacket handleModBanPacket handleModUnbanPacket
      handleModGetBanListPacket handleAzaharPlusPecificPacket
    dsimp only
    repeat' split
    all_goals rfl

private theorem map_eq_of_identity {β : Type} {f : Member → β} (hf : ∀ m, f (identity m) = f m) {l l' : List Member}
    (h : l.map identity = l'.map identity) : l.map f = l'.map f := by
  have := congrArg (List.map f) h
  simpa [Function.comp_def, hf] using this

private theorem notMem_eraseP {β : Type} [DecidableEq β] {f : Member → β} {l : List Member} (h : (l.map f).Nodup)
    {x : β} {m : Member} (hm : m ∈ l.eraseP fun m => f m == x) : f m ≠ x := by
  induction l with
  | nil => simp at hm
  | cons a l ih =>
    rw [List.map_cons, List.nodup_cons] at h
    by_cases ha : f a = x
    · rw [List.eraseP_cons_of_pos (by simpa using ha)] at hm
      intro hmx
      exact h.1 (List.mem_map.mpr ⟨m, hm, hmx.trans ha.symm⟩)
    · rw [List.eraseP_cons_of_neg (by simpa using ha)] at hm
      rcases List.mem_cons.mp hm with rfl | hm
      · exact ha
      · exact ih h.2 hm

private theorem nodup_map_concat {β : Type} {f : Member → β} {l : List Member} {m : Member} (h : (l.map f).Nodup)
    (hm : ∀ m' ∈ l, f m' ≠ f m) : ((l ++ [m]).map f).Nodup := by
  rw [List.map_append, List.map_singleton]
  refine h.append (List.nodup_singleton _) fun x hx hx' => ?_
  obtain ⟨m', hm', rfl⟩ := List.mem_map.mp hx
  exact hm m' hm' (List.mem_singleton.mp hx')

theorem MembersOk.sublist (h : MembersOk room) {l : List Member} (hl : l.Sublist room.members) {room' : Room}
    (hm : room'.members = l) (hs : room'.memberSlots = room.memberSlots) : MembersOk room' where
  nicknames := hm ▸ h.nicknames.sublist (hl.map _)
  macAddresses := hm ▸ h.macAddresses.sublist (hl.map _)
  consoleIds := hm ▸ h.consoleIds.sublist (hl.map _)
  peers := hm ▸ h.peers.sublist (hl.map _)
  slots := by
    rw [hm, hs]
    exact Nat.le_trans hl.length_le h.slots

theorem MembersOk.serverLoop (h : MembersOk room) {event : Event} (hfresh : FreshJoin loadUserData room event) :
    MembersOk (room.serverLoop loadUserData event).1 := by
  have hslots := serverLoop_memberSlots loadUserData room event
  rcases serverLoop_members loadUserData room event with
    ⟨peer, data, uninit, draws, m, rfl, hhead, hjoined, heq⟩ | ⟨peer, rfl, heq⟩ | ⟨nickname, heq⟩ | heq
  · have hm := joinedMember_spec hjoined
    refine ⟨?_, ?_, ?_, ?_, ?_⟩
    · exact heq ▸ nodup_map_concat h.nicknames hm.nickname
    · exact heq ▸ nodup_map_concat h.macAddresses hm.macAddress
    · exact heq ▸ nodup_map_concat h.consoleIds hm.consoleId
    · refine heq ▸ nodup_map_concat h.peers fun m' hm' => ?_
      rw [hm.peer_eq]
      exact hfresh hhead m hjoined m' hm'
    · rw [heq, hslots, List.length_append, List.length_singleton]
      exact hm.slot
  · exact h.sublist List.eraseP_sublist heq hslots
  · exact h.sublist List.eraseP_sublist heq hslots
  · have hlen := congrArg List.length heq
    rw [List.length_map, List.length_map] at hlen
    refine ⟨?_, ?_, ?_, ?_, ?_⟩
    · rw [map_eq_of_identity (fun _ => rfl) heq]
      exact h.nicknames
    · rw [map_eq_of_identity (fun _ => rfl) heq]
      exact h.macAddresses
    · rw [map_eq_of_identity (fun _ => rfl) heq]
      exact h.consoleIds
    · rw [map_eq_of_identity (fun _ => rfl) heq]
      exact h.peers
    · rw [hlen, hslots]
      exact h.slots

theorem MembersOk.eq_of_peer (h : MembersOk room) {m m' : Member} (hm : m ∈ room.members) (hm' : m' ∈ room.members)
    (heq : m.peer = m'.peer) : m = m' :=
  List.inj_on_of_nodup_map h.peers hm hm' heq

theorem MembersOk.turnOk (h : MembersOk room) {event : Event} (hfresh : FreshJoin loadUserData room event) :
    TurnOk loadUserData room event := by
  have hnick : ∀ m ∈ room.members, m.nickname ∈ room.members.map Member.nickname := fun m hm => List.mem_map_of_mem hm
  -- when an entry is erased, whoever shares its peer is the one that was erased
  have herase : ∀ p, (room.serverLoop loadUserData event).1.members = room.members.eraseP p →
      ∀ m ∈ room.members, m.nickname ∉ (room.serverLoop loadUserData event).1.members.map Member.nickname →
        m.peer ∉ (room.serverLoop loadUserData event).1.members.map Member.peer := by
    intro p heq m hm hgone hpeer
    obtain ⟨m', hm', hp⟩ := List.mem_map.mp hpeer
    rw [heq] at hm'
    have := h.eq_of_peer (List.mem_of_mem_eraseP hm') hm hp
    subst this
    rw [heq] at hgone
    exact hgone (List.mem_map_of_mem hm')
  rcases serverLoop_members loadUserData room event with
    ⟨peer, data, uninit, draws, m, rfl, hhead, hjoined, heq⟩ | ⟨peer, rfl, heq⟩ | ⟨nickname, heq⟩ | heq
  · have hm := joinedMember_spec hjoined
    refine ⟨(fun _ hp => nomatch hp), ?_, ?_⟩
    · intro m' hm' hgone
      exact absurd (by rw [heq]; exact List.mem_map_of_mem (List.mem_append_left _ hm')) hgone
    · intro m' hm' hnew
      rw [heq] at hm'
      rcases List.mem_append.mp hm' with hm' | hm'
      · exact absurd (hnick m' hm') hnew
      · rw [List.mem_singleton] at hm'
        subst hm'
        exact ⟨hm.peer_eq ▸ hm.ip, hm.username⟩
  · refine ⟨?_, herase _ heq, ?_⟩
    · rintro _ ⟨⟩ m hm
      exact notMem_eraseP h.peers hm
    · intro m hm hnew
      exact absurd (hnick m (List.mem_of_mem_eraseP hm)) hnew
  · refine ⟨?_, herase _ heq, ?_⟩
    · rintro peer rfl m hm
      exact notMem_eraseP h.peers hm
    · intro m hm hnew
      rw [heq] at hm
      exact absurd (hnick m (List.mem_of_mem_eraseP hm)) hnew
  · have hnames : (room.serverLoop loadUserData event).1.members.map Member.nickname = room.members.map Member.nickname :=
      map_eq_of_identity (fun _ => rfl) heq
    refine ⟨?_, ?_, ?_⟩
    · rintro peer rfl m hm
      exact notMem_eraseP h.peers hm
    · intro m hm hgone
      rw [hnames] at hgone
      exact absurd (hnick m hm) hgone
    · intro m hm hnew
      rw [← hnames] at hnew
      exact absurd (List.mem_map_of_mem hm) hnew

theorem Run.membersOk {log : List Action} (h : Run loadUserData room log) : MembersOk room := by
  induction h with
  | create maxConnections hostUsername password usernameBanList ipBanList =>
    exact ⟨List.nodup_nil, List.nodup_nil, List.nodup_nil, List.nodup_nil, Nat.zero_le _⟩
  | step event _ hfresh ih => exact ih.serverLoop hfresh

/-- The packet is no join request of a member. -/
def freshEvent (room : Room) : Event → Bool
  | .receive peer data _ _ => data.head? != some 1 || room.members.all fun m => m.peer != peer
  | _ => true

def runEvents (loadUserData : Bytes → Bytes → UserData) (room : Room) (log : List Action) : List Event → Room × List Action
  | [] => (room, log)
  | event :: events =>
    runEvents loadUserData (room.serverLoop loadUserData event).1 (log ++ (room.serverLoop loadUserData event).2) events

def freshEvents (loadUserData : Bytes → Bytes → UserData) (room : Room) : List Event → Bool
  | [] => true
  | event :: events => room.freshEvent event && freshEvents loadUserData (room.serverLoop loadUserData event).1 events

theorem Run.events {log : List Action} (h : Run loadUserData room log) {events : List Event}
    (hfresh : freshEvents loadUserData room events = true) :
    Run loadUserData (runEvents loadUserData room log events).1 (runEvents loadUserData room log events).2 := by
  induction events generalizing room log with
  | nil => exact h
  | cons event events ih =>
    unfold freshEvents at hfresh
    rw [Bool.and_eq_true] at hfresh
    refine ih (h.step event ?_) hfresh.2
    cases event with
    | receive peer data uninit draws =>
      intro hhead m hm
      simpa [freshEvent, hhead] using hfresh.1
    | setVerifyUID uid => trivial
    | connect peer ip => trivial
    | disconnect peer => trivial

def nullBackend (_ _ : Bytes) : UserData := {}

def packString (s : Bytes) : Bytes := [0, 0, 0, UInt8.ofNat s.length] ++ s

def joinPacket (nickname consoleIdHash : Bytes) (mac : MacAddress) : Bytes :=
  [1] ++ packString nickname ++ packString consoleIdHash ++ mac ++ [0, 0, 0, 4] ++ packString [] ++ packString []

def sampleRoom : Room := Room.create 4 [] [] [] []

/-- The join request of a client with the nickname `aaa`. -/
def firstJoin : Event := .receive 0 (joinPacket [0x61, 0x61, 0x61] [1] [0, 0, 0, 0, 0, 1]) [] []

/-- The join request of a client with the nickname `bbb`. -/
def secondJoin (peer : Peer) : Event := .receive peer (joinPacket [0x62, 0x62, 0x62] [2] [0, 0, 0, 0, 0, 2]) [] []

end SweepDSEmu.Network.Room
