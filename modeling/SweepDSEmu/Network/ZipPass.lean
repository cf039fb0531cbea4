import SweepDSEmu.Network.RoomMembers
import Mathlib.Data.List.DropRight

/-!
# The ZipPass exchange

When a member uploads its data, the room sends it to all members that have uploaded theirs, and their data to it.  So two
members that are both present and have both uploaded have each been sent the data of the other exactly once since both
are in the room.

What has been sent since two peers joined is the end of the log behind the last success message to one of them.
-/

namespace SweepDSEmu.Network.Room

variable {loadUserData : Bytes → Bytes → UserData} {room : Room}

def isJoinOf (peer : Peer) : Action → Bool
  | .send p (.joinSuccess _) => p == peer
  | .send p (.joinSuccessAsMod _) => p == peer
  | _ => false

def isDownload (peer : Peer) (nickname : Bytes) : Action → Bool
  | .send p (.zipPassDownload n _) => p == peer && n == nickname
  | _ => false

def sinceJoined (a b : Peer) (log : List Action) : List Action :=
  log.rtakeWhile fun x => !(isJoinOf a x || isJoinOf b x)

def expected (a b : Member) : List Action :=
  match a.zipPassData, b.zipPassData with
  | some _, some data => if a.peer = b.peer then [] else [.send a.peer (.zipPassDownload b.nickname data)]
  | _, _ => []

/-- Since both are in the room, every member has been sent what it is due about every other one, and nothing about
itself. -/
def Exchanged (room : Room) (log : List Action) : Prop :=
  ∀ a ∈ room.members, ∀ b ∈ room.members,
    (sinceJoined a.peer b.peer log).filter (isDownload a.peer b.nickname) = expected a b

def Quiet (x : Action) : Prop := ∀ peer nickname, isJoinOf peer x = false ∧ isDownload peer nickname x = false

theorem quiet_statusMessage (room : Room) (type : StatusMessageType) (nickname username : Bytes) :
    ∀ x ∈ room.sendStatusMessage type nickname username, Quiet x := by
  intro x hx
  obtain ⟨m, -, rfl⟩ := List.mem_map.mp hx
  exact fun _ _ => ⟨rfl, rfl⟩

theorem quiet_roomInformation (room : Room) : ∀ x ∈ room.broadcastRoomInformation, Quiet x := by
  intro x hx
  rw [List.mem_singleton.mp hx]
  exact fun _ _ => ⟨rfl, rfl⟩

theorem filter_quiet {l : List Action} (h : ∀ x ∈ l, Quiet x) (peer : Peer) (nickname : Bytes) :
    l.filter (isDownload peer nickname) = [] := by
  rw [List.filter_eq_nil_iff]
  intro x hx
  rw [(h x hx peer nickname).2]
  simp

theorem sinceJoined_append {a b : Peer} {new : List Action} (h : ∀ x ∈ new, isJoinOf a x = false ∧ isJoinOf b x = false)
    (log : List Action) : sinceJoined a b (log ++ new) = sinceJoined a b log ++ new := by
  unfold sinceJoined List.rtakeWhile
  rw [List.reverse_append, List.takeWhile_append_of_pos]
  · simp
  · intro x hx
    simp [h x (List.mem_reverse.mp hx)]

theorem sinceJoined_join {a b : Peer} {x : Action} (hx : isJoinOf a x = true ∨ isJoinOf b x = true) {new : List Action}
    (h : ∀ y ∈ new, isJoinOf a y = false ∧ isJoinOf b y = false) (log : List Action) :
    sinceJoined a b (log ++ x :: new) = new := by
  have heq : log ++ x :: new = (log ++ [x]) ++ new := by simp
  rw [heq, sinceJoined_append h]
  unfold sinceJoined
  rw [List.rtakeWhile_concat_neg]
  · simp
  · rcases hx with hx | hx <;> simp [hx]

structure QuietTurn (room room' : Room) (actions : List Action) : Prop where
  quiet : ∀ x ∈ actions, Quiet x
  members : ∀ m' ∈ room'.members, ∃ m ∈ room.members, m.nickname = m'.nickname ∧ m.peer = m'.peer ∧
    m.zipPassData = m'.zipPassData

structure JoinTurn (room room' : Room) (actions : List Action) (m : Member) : Prop where
  admitted : Admitted room m.peer m
  members : room'.members = room.members ++ [m]
  actions : ∃ before success after, actions = before ++ success :: after ∧ isJoinOf m.peer success = true ∧
    (∀ peer, peer ≠ m.peer → isJoinOf peer success = false) ∧ (∀ peer name, isDownload peer name success = false) ∧
    (∀ x ∈ before, Quiet x) ∧ ∀ x ∈ after, Quiet x

structure UploadTurn (room room' : Room) (actions : List Action) (m : Member) (upload : Bytes) : Prop where
  mem : m ∈ room.members
  data_eq : m.zipPassData = none
  members : room'.members = room.members.replaceF fun m' =>
    if m'.peer = m.peer then some { m' with zipPassData := some upload } else none
  actions : actions = room'.sendZipPassDownloadPackets m.peer

variable {actions log : List Action}

private theorem QuietTurn.refl (h : ∀ x ∈ actions, Quiet x) : QuietTurn room room actions :=
  ⟨h, fun m hm => ⟨m, hm, rfl, rfl, rfl⟩⟩

private theorem QuietTurn.answer {peer : Peer} {message : Message}
    (h : ∀ p n, isJoinOf p (.send peer message) = false ∧ isDownload p n (.send peer message) = false) :
    QuietTurn room room [.send peer message] :=
  .refl fun x hx => by
    rw [List.mem_singleton.mp hx]
    exact h

private theorem QuietTurn.erase {room' : Room} {p : Member → Bool} (hm : room'.members = room.members.eraseP p) (h : ∀ x ∈ actions, Quiet x) : QuietTurn room room' actions :=
  ⟨h, fun m hm' => ⟨m, List.mem_of_mem_eraseP (hm ▸ hm'), rfl, rfl, rfl⟩⟩

private theorem quiet_announce (room : Room) {before : List Action} (h : ∀ x ∈ before, Quiet x)
    (type : StatusMessageType) (nickname username : Bytes) :
    ∀ x ∈ before ++ room.sendStatusMessage type nickname username ++ room.broadcastRoomInformation, Quiet x :=
  List.forall_mem_append.mpr ⟨List.forall_mem_append.mpr ⟨h, quiet_statusMessage room type nickname username⟩,
    quiet_roomInformation room⟩

private theorem quiet_disconnect (peer : Peer) : ∀ x ∈ [Action.disconnect peer], Quiet x := by
  intro x hx
  rw [List.mem_singleton.mp hx]
  exact fun _ _ => ⟨rfl, rfl⟩

private theorem quiet_removal (peer : Peer) {message : Message} (h : Quiet (.send peer message)) :
    ∀ x ∈ [Action.send peer message, .disconnect peer], Quiet x :=
  List.forall_mem_cons.mpr ⟨h, quiet_disconnect peer⟩

private theorem mem_replaceF {f : Member → Option Member} {l : List Member} {m' : Member} (h : m' ∈ l.replaceF f) :
    m' ∈ l ∨ ∃ m ∈ l, f m = some m' := by
  induction l with
  | nil => simp at h
  | cons a l ih =>
    unfold List.replaceF at h
    cases ha : f a with
    | none =>
      simp only [ha, List.mem_cons] at h
      rcases h with rfl | h
      · exact Or.inl List.mem_cons_self
      · rcases ih h with h | ⟨m, hm, hf⟩
        · exact Or.inl (List.mem_cons_of_mem _ h)
        · exact Or.inr ⟨m, List.mem_cons_of_mem _ hm, hf⟩
    | some b =>
      simp only [ha, List.mem_cons] at h
      rcases h with rfl | h
      · exact Or.inr ⟨a, List.mem_cons_self, ha⟩
      · exact Or.inl (List.mem_cons_of_mem _ h)

private theorem joinedMemberWith_refusal {peer : Peer} {request : JoinRequest} {mac : MacAddress} {refusal : Message}
    (h : room.joinedMemberWith loadUserData peer request mac = .error (some refusal)) : Quiet (.send peer refusal) := by
  unfold joinedMemberWith at h
  dsimp only at h
  repeat' split at h
  all_goals cases h
  all_goals exact fun _ _ => ⟨rfl, rfl⟩

theorem joinedMember_refusal {peer : Peer} {data : Bytes} {uninit : List UInt8} {draws : List Bytes} {refusal : Message}
    (h : room.joinedMember loadUserData peer data uninit draws = .error (some refusal)) : Quiet (.send peer refusal) := by
  unfold joinedMember at h
  generalize JoinRequest.read data uninit = request at h
  dsimp only at h
  split at h
  · cases h
    exact fun _ _ => ⟨rfl, rfl⟩
  · split at h
    · cases h
      exact fun _ _ => ⟨rfl, rfl⟩
    · split at h
      · cases h
        exact fun _ _ => ⟨rfl, rfl⟩
      · cases hmac : room.chooseMac request.preferredMac draws with
        | ok mac =>
          rw [hmac] at h
          exact joinedMemberWith_refusal h
        | error e =>
          rw [hmac] at h
          cases h
          unfold chooseMac at hmac
          repeat' split at hmac
          all_goals cases hmac
          exact fun _ _ => ⟨rfl, rfl⟩

theorem handleJoinRequest_cases (loadUserData : Bytes → Bytes → UserData) (room : Room) (peer : Peer) (data : Bytes)
    (uninit : List UInt8) (draws : List Bytes) :
    QuietTurn room (room.handleJoinRequest loadUserData peer data uninit draws).1
        (room.handleJoinRequest loadUserData peer data uninit draws).2 ∨
      ∃ m, room.joinedMember loadUserData peer data uninit draws = .ok m ∧
        JoinTurn room (room.handleJoinRequest loadUserData peer data uninit draws).1
          (room.handleJoinRequest loadUserData peer data uninit draws).2 m := by
  unfold handleJoinRequest
  split
  · exact .inl (.refl (by simp))
  · rename_i refusal hrefusal
    exact .inl (.answer (joinedMember_refusal hrefusal))
  · rename_i m hm
    have hjoined := joinedMember_spec hm
    refine .inr ⟨m, hm, hjoined.peer_eq ▸ hjoined, rfl, ?_⟩
    refine ⟨_, _, [.send peer (.zipPassAnnounce azaharplusNetworkVersion)], rfl, ?_, ?_, ?_, ?_, ?_⟩
    · rw [hjoined.peer_eq]
      split <;> simp [isJoinOf]
    · intro p hp
      rw [hjoined.peer_eq] at hp
      split <;> simpa [isJoinOf] using Ne.symm hp
    · intro p name
      split <;> rfl
    · exact List.forall_mem_append.mpr ⟨quiet_statusMessage _ _ _ _, quiet_roomInformation _⟩
    · intro x hx
      rw [List.mem_singleton.mp hx]
      exact fun _ _ => ⟨rfl, rfl⟩

theorem handleUpload_cases (room : Room) (peer : Peer) (data : Bytes) (uninit : List UInt8) :
    QuietTurn room (room.handleAzaharPlusPecificPacket peer data uninit).1
        (room.handleAzaharPlusPecificPacket peer data uninit).2 ∨
      ∃ m upload, UploadTurn room (room.handleAzaharPlusPecificPacket peer data uninit).1
        (room.handleAzaharPlusPecificPacket peer data uninit).2 m upload := by
  unfold handleAzaharPlusPecificPacket
  split
  · exact .inl (.refl (by simp))
  · rename_i upload _
    split
    · exact .inl (.refl (by simp))
    · rename_i m hm
      have hpeer : m.peer = peer := by simpa using List.find?_some hm
      subst hpeer
      split
      · exact .inl (.refl (by simp))
      · rename_i hdata
        exact .inr ⟨m, upload, List.mem_of_find?_eq_some hm, by simpa using hdata, rfl, rfl⟩

theorem serverLoop_exchange (loadUserData : Bytes → Bytes → UserData) (room : Room) (event : Event) :
    QuietTurn room (room.serverLoop loadUserData event).1 (room.serverLoop loadUserData event).2 ∨
      (∃ peer data uninit draws m, event = .receive peer data uninit draws ∧ data.head? = some 1 ∧
        room.joinedMember loadUserData peer data uninit draws = .ok m ∧
        JoinTurn room (room.serverLoop loadUserData event).1 (room.serverLoop loadUserData event).2 m) ∨
      ∃ m upload,
        UploadTurn room (room.serverLoop loadUserData event).1 (room.serverLoop loadUserData event).2 m upload := by
  cases event with
  | setVerifyUID uid => exact .inl ⟨by simp [serverLoop], fun m hm => ⟨m, hm, rfl, rfl, rfl⟩⟩
  | connect peer ip => exact .inl ⟨by simp [serverLoop], fun m hm => ⟨m, hm, rfl, rfl, rfl⟩⟩
  | disconnect peer =>
    refine .inl (.erase rfl (List.forall_mem_append.mpr ⟨List.forall_mem_append.mpr ⟨?_, ?_⟩, quiet_roomInformation _⟩))
    · exact quiet_disconnect peer
    · split
      · exact quiet_statusMessage _ _ _ _
      · simp
  | receive peer data uninit draws =>
    change QuietTurn room (room.handlePacket loadUserData peer data uninit draws).1
        (room.handlePacket loadUserData peer data uninit draws).2 ∨
      (∃ _ _ _ _ m, _ ∧ _ ∧ _ ∧ JoinTurn room (room.handlePacket loadUserData peer data uninit draws).1
        (room.handlePacket loadUserData peer data uninit draws).2 m) ∨
      ∃ m upload, UploadTurn room (room.handlePacket loadUserData peer data uninit draws).1
        (room.handlePacket loadUserData peer data uninit draws).2 m upload
    unfold handlePacket
    split
    · rename_i hhead
      rcases handleJoinRequest_cases loadUserData room peer data uninit draws with h | ⟨m, hm, h⟩
      · exact .inl h
      · exact .inr (.inl ⟨peer, data, uninit, draws, m, rfl, hhead, hm, h⟩)
    · refine .inl ⟨quiet_roomInformation _, fun m' hm' => ?_⟩
      rcases mem_replaceF hm' with hm' | ⟨m, hm, hf⟩
      · exact ⟨m', hm', rfl, rfl, rfl⟩
      · split at hf <;> cases hf
        exact ⟨m, hm, rfl, rfl, rfl⟩
    · unfold handleModKickPacket
      split
      · exact .inl (.answer fun _ _ => ⟨rfl, rfl⟩)
      · dsimp only
        split
        · exact .inl (.answer fun _ _ => ⟨rfl, rfl⟩)
        · exact .inl (.erase rfl (quiet_announce _ (quiet_removal _ fun _ _ => ⟨rfl, rfl⟩) _ _ _))
    · unfold handleModBanPacket
      split
      · exact .inl (.answer fun _ _ => ⟨rfl, rfl⟩)
      · dsimp only
        split
        · exact .inl (.answer fun _ _ => ⟨rfl, rfl⟩)
        · exact .inl (.erase rfl (quiet_announce _ (quiet_removal _ fun _ _ => ⟨rfl, rfl⟩) _ _ _))
    · unfold handleModUnbanPacket
      split
      · exact .inl (.answer fun _ _ => ⟨rfl, rfl⟩)
      · dsimp only
        split
        · exact .inl ⟨quiet_statusMessage _ _ _ _, fun m hm => ⟨m, hm, rfl, rfl, rfl⟩⟩
        · exact .inl (.answer fun _ _ => ⟨rfl, rfl⟩)
    · unfold handleModGetBanListPacket
      split
      · exact .inl (.answer fun _ _ => ⟨rfl, rfl⟩)
      · exact .inl (.answer fun _ _ => ⟨rfl, rfl⟩)
    · rcases handleUpload_cases room peer data uninit with h | ⟨m, upload, h⟩
      · exact .inl h
      · exact .inr (.inr ⟨m, upload, h⟩)
    · exact .inl (.refl (by simp))

theorem Exchanged.quiet {room' : Room} (h : Exchanged room log)
    (hturn : QuietTurn room room' actions) : Exchanged room' (log ++ actions) := by
  intro a ha b hb
  obtain ⟨a', ha', hna, hpa, hda⟩ := hturn.members a ha
  obtain ⟨b', hb', hnb, hpb, hdb⟩ := hturn.members b hb
  have hold := h a' ha' b' hb'
  have hexp : expected a b = expected a' b' := by
    unfold expected
    rw [hpa, hpb, hda, hdb, hnb]
  rw [sinceJoined_append fun x hx => ⟨(hturn.quiet x hx a.peer []).1, (hturn.quiet x hx b.peer []).1⟩,
    List.filter_append, filter_quiet hturn.quiet, List.append_nil, hexp, ← hold, hpa, hpb, hnb]

theorem expected_of_none {a b : Member} (h : a.zipPassData = none ∨ b.zipPassData = none) : expected a b = [] := by
  unfold expected
  rcases h with h | h
  · rw [h]
  · rw [h]
    cases a.zipPassData <;> rfl

theorem Exchanged.join {room' : Room} (h : Exchanged room log) {m : Member}
    (hfresh : ∀ m' ∈ room.members, m'.peer ≠ m.peer) (hturn : JoinTurn room room' actions m) :
    Exchanged room' (log ++ actions) := by
  obtain ⟨before, success, after, rfl, hjoin, hother, hnodl, hbefore, hafter⟩ := hturn.actions
  have hquiet : ∀ {l : List Action}, (∀ x ∈ l, Quiet x) → ∀ (p q : Peer), ∀ x ∈ l, isJoinOf p x = false ∧ isJoinOf q x = false :=
    fun hl p q x hx => ⟨(hl x hx p []).1, (hl x hx q []).1⟩
  intro a ha b hb
  rw [hturn.members] at ha hb
  by_cases hm : a.peer = m.peer ∨ b.peer = m.peer
  · -- one of the two is new, and nothing has been sent since
    have hj : isJoinOf a.peer success = true ∨ isJoinOf b.peer success = true := by
      rcases hm with hm | hm
      · exact Or.inl (hm ▸ hjoin)
      · exact Or.inr (hm ▸ hjoin)
    have heq : log ++ (before ++ success :: after) = (log ++ before) ++ success :: after := by simp
    rw [heq, sinceJoined_join hj (hquiet hafter _ _), filter_quiet hafter, expected_of_none]
    have hnew : ∀ c ∈ room.members ++ [m], c.peer = m.peer → c.zipPassData = none := by
      intro c hc hp
      rcases List.mem_append.mp hc with hc | hc
      · exact absurd hp (hfresh c hc)
      · rw [List.mem_singleton.mp hc]
        exact hturn.admitted.data_eq
    exact hm.imp (hnew a ha) (hnew b hb)
  · rw [not_or] at hm
    have hold : ∀ c ∈ room.members ++ [m], c.peer ≠ m.peer → c ∈ room.members := by
      intro c hc hp
      rcases List.mem_append.mp hc with hc | hc
      · exact hc
      · rw [List.mem_singleton.mp hc] at hp
        exact absurd rfl hp
    have hnojoin : ∀ x ∈ before ++ success :: after, isJoinOf a.peer x = false ∧ isJoinOf b.peer x = false := by
      refine List.forall_mem_append.mpr ⟨hquiet hbefore _ _, List.forall_mem_cons.mpr ⟨?_, hquiet hafter _ _⟩⟩
      exact ⟨hother _ hm.1, hother _ hm.2⟩
    rw [sinceJoined_append hnojoin, List.filter_append, List.filter_append, filter_quiet hbefore,
      List.filter_cons_of_neg (by simp [hnodl]), filter_quiet hafter, List.append_nil, List.append_nil]
    exact h a (hold a ha hm.1) b (hold b hb hm.2)

private theorem replaceF_eq_map {l : List Member} (h : (l.map Member.peer).Nodup) (peer : Peer) (f : Member → Member) :
    (l.replaceF fun m => if m.peer = peer then some (f m) else none) = l.map fun m => if m.peer = peer then f m else m := by
  induction l with
  | nil => rfl
  | cons a l ih =>
    rw [List.map_cons, List.nodup_cons] at h
    unfold List.replaceF
    by_cases ha : a.peer = peer
    · simp only [if_pos ha, List.map_cons, List.cons.injEq, true_and]
      have hrest : ∀ m ∈ l, (if m.peer = peer then f m else m) = m := by
        intro m hm
        rw [if_neg]
        intro hp
        exact h.1 (List.mem_map.mpr ⟨m, hm, hp.trans ha.symm⟩)
      exact ((List.map_congr_left hrest).trans (List.map_id' l)).symm
    · simp only [if_neg ha, List.map_cons, List.cons.injEq, true_and]
      exact ih h.2

private theorem filter_flatMap_single {α β : Type} {l : List α} (hl : l.Nodup) {x : α} (hx : x ∈ l) {g : α → List β}
    {p : β → Bool} (h : ∀ y ∈ l, y ≠ x → (g y).filter p = []) : (l.flatMap g).filter p = (g x).filter p := by
  induction l with
  | nil => simp at hx
  | cons a l ih =>
    rw [List.nodup_cons] at hl
    rw [List.flatMap_cons, List.filter_append]
    have hnil : ∀ (l' : List α), (∀ y ∈ l', (g y).filter p = []) → (l'.flatMap g).filter p = [] := by
      intro l' hl'
      rw [List.filter_flatMap, List.flatMap_eq_nil_iff]
      exact hl'
    by_cases ha : a = x
    · subst ha
      rw [hnil l fun y hy => h y (List.mem_cons_of_mem _ hy) fun e => hl.1 (e ▸ hy), List.append_nil]
    · rcases List.mem_cons.mp hx with rfl | hx
      · exact absurd rfl ha
      · rw [h a List.mem_cons_self ha, List.nil_append]
        exact ih hl.2 hx fun y hy => h y (List.mem_cons_of_mem _ hy)

/-- The downloads that an upload of `c` causes for another member. -/
def downloads (c : Member) (newData : Bytes) (m : Member) : List Action :=
  match m.zipPassData with
  | some data =>
    if m.peer ≠ c.peer then
      [.send m.peer (.zipPassDownload c.nickname newData), .send c.peer (.zipPassDownload m.nickname data)]
    else []
  | none => []

theorem sendZipPassDownloadPackets_eq (hpeers : (room.members.map Member.peer).Nodup) {c : Member} {newData : Bytes}
    (hc : c ∈ room.members) (hdata : c.zipPassData = some newData) :
    room.sendZipPassDownloadPackets c.peer = room.members.flatMap (downloads c newData) := by
  have hfind : room.members.find? (fun m => m.peer == c.peer) = some c := by
    cases hf : room.members.find? fun m => m.peer == c.peer with
    | none => exact absurd (List.find?_eq_none.mp hf c hc) (by simp)
    | some m =>
      have hp : m.peer = c.peer := by simpa using List.find?_some hf
      rw [List.inj_on_of_nodup_map hpeers (List.mem_of_find?_eq_some hf) hc hp]
  unfold sendZipPassDownloadPackets downloads
  rw [hfind]
  simp only [hdata]
  congr 1
  funext m
  cases m.zipPassData <;> rfl

theorem filter_downloads (c : Member) (newData : Bytes) (m : Member) (a : Peer) (b : Bytes) :
    (downloads c newData m).filter (isDownload a b) =
      (if m.peer ≠ c.peer ∧ m.zipPassData.isSome ∧ m.peer = a ∧ c.nickname = b then
        [.send m.peer (.zipPassDownload c.nickname newData)] else []) ++
      (if m.peer ≠ c.peer ∧ m.zipPassData.isSome ∧ c.peer = a ∧ m.nickname = b then
        [.send c.peer (.zipPassDownload m.nickname (m.zipPassData.getD []))] else []) := by
  unfold downloads
  cases m.zipPassData with
  | none => simp
  | some data =>
    by_cases hp : m.peer = c.peer
    · simp [hp]
    · have hdl : ∀ p n d, isDownload a b (.send p (.zipPassDownload n d)) = decide (p = a ∧ n = b) := by
        intro p n d
        rw [Bool.eq_iff_iff]
        simp [isDownload]
      simp only [hp, ne_eq, not_false_eq_true, if_true, Option.isSome_some, true_and, Option.getD_some,
        List.filter_cons, hdl, decide_eq_true_eq, List.filter_nil]
      by_cases h1 : m.peer = a ∧ c.nickname = b
      · by_cases h2 : c.peer = a ∧ m.nickname = b
        · rw [if_pos h1, if_pos h2, if_pos h1]
          rfl
        · rw [if_pos h1, if_neg h2, if_pos h1]
          rfl
      · rw [if_neg h1, if_neg h1, List.nil_append]

private theorem filter_sends {l : List Member} (hnames : (l.map Member.nickname).Nodup)
    (hpeers : (l.map Member.peer).Nodup) {c : Member} {newData : Bytes} (hc : c ∈ l)
    (hdata : c.zipPassData = some newData) {a b : Member} (ha : a ∈ l) (hb : b ∈ l) :
    (l.flatMap (downloads c newData)).filter (isDownload a.peer b.nickname) =
      if a = c ∨ b = c then expected a b else [] := by
  have hnodup : l.Nodup := hpeers.of_map _
  have hpeer : ∀ m ∈ l, ∀ m' ∈ l, m.peer = m'.peer ↔ m = m' := fun m hm m' hm' =>
    ⟨List.inj_on_of_nodup_map hpeers hm hm', fun h => h ▸ rfl⟩
  have hname : ∀ m ∈ l, ∀ m' ∈ l, m.nickname = m'.nickname ↔ m = m' := fun m hm m' hm' =>
    ⟨List.inj_on_of_nodup_map hnames hm hm', fun h => h ▸ rfl⟩
  -- the conditions of `filter_downloads` in terms of the members
  have hfilter : ∀ m ∈ l, (downloads c newData m).filter (isDownload a.peer b.nickname) =
      (if m ≠ c ∧ m.zipPassData.isSome ∧ m = a ∧ c = b then
        [.send m.peer (.zipPassDownload c.nickname newData)] else []) ++
      (if m ≠ c ∧ m.zipPassData.isSome ∧ c = a ∧ m = b then
        [.send c.peer (.zipPassDownload m.nickname (m.zipPassData.getD []))] else []) := by
    intro m hm
    rw [filter_downloads]
    simp only [ne_eq, hpeer m hm c hc, hpeer m hm a ha, hpeer c hc a ha, hname c hc b hb, hname m hm b hb]
  have hnone : (∀ m ∈ l, ¬ (m ≠ c ∧ m = a ∧ c = b) ∧ ¬ (m ≠ c ∧ c = a ∧ m = b)) →
      (l.flatMap (downloads c newData)).filter (isDownload a.peer b.nickname) = [] := by
    intro h
    rw [List.filter_flatMap, List.flatMap_eq_nil_iff]
    intro m hm
    rw [hfilter m hm, if_neg fun h' => (h m hm).1 ⟨h'.1, h'.2.2⟩, if_neg fun h' => (h m hm).2 ⟨h'.1, h'.2.2⟩]
    rfl
  by_cases hac : a = c
  · subst hac
    by_cases hbc : b = a
    · subst hbc
      rw [hnone fun m hm => ⟨fun h => h.1 h.2.1, fun h => h.1 h.2.2⟩]
      simp [expected, hdata]
    · rw [filter_flatMap_single hnodup hb, hfilter b hb]
      · have hp : ¬ a.peer = b.peer := fun h => hbc ((hpeer a ha b hb).mp h).symm
        cases hbd : b.zipPassData with
        | none => simp [expected, hdata, hbd]
        | some d => simp [expected, hdata, hbd, hp, hbc]
      · intro m hm hmb
        rw [hfilter m hm, if_neg fun h => h.1 h.2.2.1, if_neg fun h => hmb h.2.2.2]
        rfl
  · by_cases hbc : b = c
    · subst hbc
      rw [if_pos (Or.inr rfl), filter_flatMap_single hnodup ha, hfilter a ha]
      · have hp : ¬ a.peer = b.peer := fun h => hac ((hpeer a ha b hb).mp h)
        cases had : a.zipPassData with
        | none => simp [expected, had]
        | some d => simp [expected, hdata, had, hp, hac]
      · intro m hm hma
        rw [hfilter m hm, if_neg fun h => hma h.2.2.1, if_neg fun h => hac h.2.2.1.symm]
        rfl
    · rw [if_neg (by simp [hac, hbc]), hnone fun m hm => ⟨fun h => hbc h.2.2.symm, fun h => hac h.2.1.symm⟩]

theorem Exchanged.upload {room' : Room} (h : Exchanged room log) (hok : MembersOk room)
    {m : Member} {upload : Bytes} (hturn : UploadTurn room room' actions m upload) :
    Exchanged room' (log ++ actions) := by
  let f : Member → Member := fun m' => if m'.peer = m.peer then { m' with zipPassData := some upload } else m'
  have hmembers : room'.members = room.members.map f := hturn.members.trans (replaceF_eq_map hok.peers m.peer _)
  have hfpeer : ∀ m', (f m').peer = m'.peer := by
    intro m'
    simp only [f]
    split <;> rfl
  have hfname : ∀ m', (f m').nickname = m'.nickname := by
    intro m'
    simp only [f]
    split <;> rfl
  have hpeers : (room'.members.map Member.peer).Nodup := by
    rw [hmembers, List.map_map, Function.comp_def]
    simpa only [hfpeer] using hok.peers
  have hnames : (room'.members.map Member.nickname).Nodup := by
    rw [hmembers, List.map_map, Function.comp_def]
    simpa only [hfname] using hok.nicknames
  -- the member that uploads, afterwards
  have hfm : f m = { m with zipPassData := some upload } := by simp [f]
  have hc : f m ∈ room'.members := hmembers ▸ List.mem_map_of_mem hturn.mem
  have hactions : actions = room'.members.flatMap (downloads (f m) upload) := by
    rw [hturn.actions, ← hfpeer m]
    exact sendZipPassDownloadPackets_eq hpeers hc (by rw [hfm])
  intro a ha b hb
  obtain ⟨a', ha', rfl⟩ := List.mem_map.mp (hmembers ▸ ha)
  obtain ⟨b', hb', rfl⟩ := List.mem_map.mp (hmembers ▸ hb)
  have hnojoin : ∀ x ∈ actions, isJoinOf (f a').peer x = false ∧ isJoinOf (f b').peer x = false := by
    intro x hx
    rw [hactions] at hx
    obtain ⟨m', -, hx⟩ := List.mem_flatMap.mp hx
    unfold downloads at hx
    split at hx
    · split at hx
      · simp only [List.mem_cons, List.not_mem_nil, or_false] at hx
        rcases hx with rfl | rfl <;> exact ⟨rfl, rfl⟩
      · simp at hx
    · simp at hx
  have hold := h a' ha' b' hb'
  rw [sinceJoined_append hnojoin, List.filter_append, hfpeer, hfpeer, hfname, hold, ← hfpeer a', ← hfname b', hactions,
    filter_sends hnames hpeers hc (by rw [hfm]) ha hb]
  -- a pair with the uploading member was not due anything before
  have hchange : ∀ m' ∈ room.members, f m' = f m ↔ m' = m := by
    intro m' hm'
    refine ⟨fun he => hok.eq_of_peer hm' hturn.mem ?_, fun he => he ▸ rfl⟩
    rw [← hfpeer m', he, hfpeer]
  have hsame : ∀ m' ∈ room.members, m' ≠ m → f m' = m' := by
    intro m' hm' hne
    simp only [f]
    rw [if_neg fun hp => hne (hok.eq_of_peer hm' hturn.mem hp)]
  by_cases hpair : a' = m ∨ b' = m
  · have hnone : expected a' b' = [] := by
      refine expected_of_none ?_
      rcases hpair with rfl | rfl
      · exact Or.inl hturn.data_eq
      · exact Or.inr hturn.data_eq
    rw [if_pos (by rwa [hchange a' ha', hchange b' hb']), hnone, List.nil_append]
  · rw [if_neg (by rwa [hchange a' ha', hchange b' hb']), List.append_nil]
    rw [not_or] at hpair
    rw [hsame a' ha' hpair.1, hsame b' hb' hpair.2]

theorem Run.exchanged (h : Run loadUserData room log) : Exchanged room log := by
  induction h with
  | create maxConnections hostUsername password usernameBanList ipBanList =>
    intro a ha
    simp [Room.create] at ha
  | @step room log event hrun hfresh ih =>
    rcases serverLoop_exchange loadUserData room event with
      hq | ⟨peer, data, uninit, draws, m, rfl, hhead, hjoined, hj⟩ | ⟨m, upload, hu⟩
    · exact ih.quiet hq
    · refine ih.join (fun m' hm' => ?_) hj
      rw [(joinedMember_spec hjoined).peer_eq]
      exact hfresh hhead m hjoined m' hm'
    · exact ih.upload hrun.membersOk hu

/-- Two members that are present and have uploaded: since both are in the room, each has been sent the data of the other
exactly once, nobody has been sent its own, and a further upload changes nothing. -/
theorem run_zipPass {log : List Action} (h : Run loadUserData room log) :
    (∀ a ∈ room.members, ∀ b ∈ room.members, a.peer ≠ b.peer → ∀ dataA dataB, a.zipPassData = some dataA →
      b.zipPassData = some dataB →
      (sinceJoined a.peer b.peer log).filter (isDownload a.peer b.nickname) =
        [.send a.peer (.zipPassDownload b.nickname dataB)]) ∧
    (∀ a ∈ room.members, (sinceJoined a.peer a.peer log).filter (isDownload a.peer a.nickname) = []) ∧
    ∀ m ∈ room.members, m.zipPassData.isSome → ∀ data uninit draws, data.head? = some 0xFF →
      room.serverLoop loadUserData (.receive m.peer data uninit draws) = (room, []) := by
  refine ⟨?_, ?_, ?_⟩
  · intro a ha b hb hne dataA dataB hA hB
    rw [h.exchanged a ha b hb]
    simp [expected, hA, hB, hne]
  · intro a ha
    rw [h.exchanged a ha a ha]
    unfold expected
    cases a.zipPassData <;> simp
  · intro m hm hdata data uninit draws hhead
    change room.handlePacket loadUserData m.peer data uninit draws = _
    unfold handlePacket
    rw [hhead]
    simp only
    unfold handleAzaharPlusPecificPacket
    split
    · rfl
    · split
      · rfl
      · rename_i m' hm'
        have hp : m'.peer = m.peer := by simpa using List.find?_some hm'
        rw [h.membersOk.eq_of_peer (List.mem_of_find?_eq_some hm') hm hp, if_pos hdata]

def uploadOf (peer : Peer) (data : UInt8) : Event := .receive peer [0xFF, 2, 0, 0, 0, 1, 0, 0, 0, 1, data] [] []

def exchangeEvents : List Event := [firstJoin, secondJoin 1, uploadOf 0 7, uploadOf 1 8]

def memberA : Member := ⟨[0x61, 0x61, 0x61], [1], {}, [0, 0, 0, 0, 0, 1], {}, 0, some [7]⟩

def memberB : Member := ⟨[0x62, 0x62, 0x62], [2], {}, [0, 0, 0, 0, 0, 2], {}, 1, some [8]⟩

/-- The first member is sent the data of the second. -/
theorem exchangeEvents_zipPass :
    (runEvents nullBackend sampleRoom [] exchangeEvents).1.members = [memberA, memberB] ∧
      (sinceJoined 0 1 (runEvents nullBackend sampleRoom [] exchangeEvents).2).filter (isDownload 0 memberB.nickname) =
        [.send 0 (.zipPassDownload memberB.nickname [8])] := by
  have hrun : Run nullBackend (runEvents nullBackend sampleRoom [] exchangeEvents).1
      (runEvents nullBackend sampleRoom [] exchangeEvents).2 := (Run.create 4 [] [] [] []).events (by decide)
  have hmembers : (runEvents nullBackend sampleRoom [] exchangeEvents).1.members = [memberA, memberB] := by decide
  refine ⟨hmembers, (run_zipPass hrun).1 memberA ?_ memberB ?_ (by decide) [7] [8] rfl rfl⟩
  · rw [hmembers]
    simp
  · rw [hmembers]
    simp

/-- The second member leaves, joins on a new connection and uploads again: the first one has been sent its data twice. -/
theorem rejoin_sends_twice :
    let run := runEvents nullBackend sampleRoom [] (exchangeEvents ++ [.disconnect 1, secondJoin 1, uploadOf 1 8])
    Run nullBackend run.1 run.2 ∧
      run.1.members.map (fun m => (m.peer, m.nickname, m.zipPassData)) =
        [(0, [0x61, 0x61, 0x61], some [7]), (1, [0x62, 0x62, 0x62], some [8])] ∧
      run.2.count (.send 0 (.zipPassDownload [0x62, 0x62, 0x62] [8])) = 2 :=
  ⟨(Run.create 4 [] [] [] []).events (by decide), by decide, by decide⟩

end SweepDSEmu.Network.Room
