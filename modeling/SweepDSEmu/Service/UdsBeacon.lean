import SweepDSEmu.Service.NwmUds
import SweepDSEmu.Lib.ByteOrder
import SweepDSEmu.Lib.CheckedAccess
import SweepDSEmu.Lib.StreamCipher

/-!
# Beacons of local wireless networks

`GenerateBeaconFrame` and what it calls.  The data of the nodes is encrypted and cut into two tags.  The hash functions and
the keystream of AES-CTR are parameters.

* The tags are cut with the size of `NodeInfo`, which is not the size of what was encrypted: the copies stay inside for at
  most one node (`generateBeaconFrame_completes_iff`), and the tags never hold the data of the nodes (`not_survives`).
-/

namespace SweepDSEmu.Service.NWM.Beacon

abbrev Bytes := List UInt8

structure NetworkInfo extends NWM.NetworkInfo where
  hostMacAddress : Vector UInt8 6
  ouiValue : Vector UInt8 3
  ouiType : UInt8
  wlanCommId : UInt32
  id : UInt8
  padding1 : UInt8 := 0
  attributes : UInt16 := 0
  networkId : UInt32
  padding2 : Vector UInt8 2 := Vector.replicate 2 0
  padding3 : Vector UInt8 0x1F := Vector.replicate 0x1F 0
  applicationDataSize : UInt8 := 0
  applicationData : Vector UInt8 0xC8 := Vector.replicate 0xC8 0

structure Crypto where
  md5 : Bytes → Vector UInt8 16
  sha1 : Bytes → Vector UInt8 20
  /-- The keystream of AES-CTR with the key `nwm_beacon_key`. -/
  keystream : Vector UInt8 16 → Nat → UInt8

inductive Fault
  | assertion
  | outOfBounds
  deriving DecidableEq

def nintendoOUI : Bytes := [0x00, 0x1F, 0x32]

def tagDummy : UInt8 := 20

def tagNetworkInfo : UInt8 := 21

def tagEncryptedData0 : UInt8 := 24

def tagEncryptedData1 : UInt8 := 25

def tagSSID : UInt8 := 0

def tagVendorSpecific : UInt8 := 221

def sizeOfTagHeader : Nat := 2

def sizeOfEncryptedDataTag : Nat := 6

def sizeOfNetworkInfoTag : Nat := 54

def sizeOfNodeInfo : Nat := 40

def sizeOfBeaconData : Nat := 0x12

def encryptedDataSizeCutoff : Nat := 0xFA

def applicationDataSize : Nat := 0xC8

def toBigEndian (n x : Nat) : Bytes := (toLittleEndian n x).reverse

def assert (condition : Bool) : Except Fault Unit := if condition then .ok () else .error .assertion

def generateFixedParameters : Bytes :=
  toLittleEndian 8 900000000 ++ toLittleEndian 2 100 ++ toLittleEndian 2 0x0431

def generateSSIDTag : Bytes := [tagSSID, 8] ++ List.replicate 8 0

def generateBasicTaggedParameters : Bytes := generateSSIDTag

def generateNintendoDummyTag : Bytes := [tagVendorSpecific, 7] ++ nintendoOUI ++ [tagDummy] ++ [0x0A, 0x00, 0x00]

/-- The 31 bytes of a network from `oui_value` on. -/
def NetworkInfo.fromOui (info : NetworkInfo) : Bytes :=
  (info.ouiValue.toList ++ [info.ouiType] ++ toBigEndian 4 info.wlanCommId.toNat ++ [info.id, info.padding1] ++
    toBigEndian 2 info.attributes.toNat ++ toBigEndian 4 info.networkId.toNat ++
    [UInt8.ofNat info.totalNodes, UInt8.ofNat info.maxNodes] ++ info.padding2.toList ++ info.padding3.toList).take 0x1F

def generateNintendoNetworkInfoTag (c : Crypto) (info : NetworkInfo) : Except Fault Bytes := do
  let header := [tagVendorSpecific, UInt8.ofNat (sizeOfNetworkInfoTag - sizeOfTagHeader + info.applicationDataSize.toNat)]
  assert (info.ouiType = tagNetworkInfo)
  assert (info.ouiValue.toList = nintendoOUI)
  assert (info.applicationDataSize.toNat ≤ applicationDataSize)
  let application ← checkedSlice .outOfBounds info.applicationData.toList 0 info.applicationDataSize.toNat
  let hash := c.sha1 (info.fromOui ++ List.replicate 0x14 0 ++ [info.applicationDataSize] ++ application)
  return header ++ info.fromOui ++ hash.toList ++ [info.applicationDataSize] ++ application

def getBeaconCryptoCTR (info : NetworkInfo) : Vector UInt8 16 :=
  info.hostMacAddress ++
    (⟨(toLittleEndian 4 info.wlanCommId.toNat).toArray, by simp⟩ : Vector UInt8 4) ++ #v[info.id, 0] ++
    (⟨(toLittleEndian 4 info.networkId.toNat).toArray, by simp⟩ : Vector UInt8 4)

def beaconNodeInfo (node : NodeInfo) : Bytes :=
  toBigEndian 8 node.friendCodeSeed.toNat ++ node.username.toList.flatMap (fun c => toBigEndian 2 c.toNat) ++
    toBigEndian 2 node.networkNodeId

def plainData (c : Crypto) (nodes : List NodeInfo) : Bytes :=
  let bitmask := [0, 0]
  (c.md5 (bitmask ++ nodes.flatMap beaconNodeInfo)).toList ++ bitmask ++ nodes.flatMap beaconNodeInfo

def generatedEncryptedData (c : Crypto) (info : NetworkInfo) (nodes : List NodeInfo) : Bytes :=
  xorStream (c.keystream (getBeaconCryptoCTR info)) (plainData c nodes)

def decryptBeacon (c : Crypto) (info : NetworkInfo) (buffer : Bytes) : Bytes :=
  xorStream (c.keystream (getBeaconCryptoCTR info)) buffer

def generateNintendoFirstEncryptedDataTag (c : Crypto) (info : NetworkInfo) (nodes : List NodeInfo) :
    Except Fault Bytes := do
  let payloadSize := min encryptedDataSizeCutoff (nodes.length * sizeOfNodeInfo)
  let tag := [tagVendorSpecific, UInt8.ofNat (sizeOfEncryptedDataTag - sizeOfTagHeader + payloadSize)] ++ nintendoOUI ++
    [tagEncryptedData0]
  let payload ← checkedSlice .outOfBounds (generatedEncryptedData c info nodes) 0 payloadSize
  return tag ++ payload

def generateNintendoSecondEncryptedDataTag (c : Crypto) (info : NetworkInfo) (nodes : List NodeInfo) :
    Except Fault Bytes := do
  if nodes.length * sizeOfNodeInfo ≤ encryptedDataSizeCutoff then return []
  let payloadSize := nodes.length * sizeOfNodeInfo - encryptedDataSizeCutoff
  let tagLength := sizeOfEncryptedDataTag - sizeOfTagHeader + payloadSize
  assert (tagLength ≤ 255)
  let tag := [tagVendorSpecific, UInt8.ofNat tagLength] ++ nintendoOUI ++ [tagEncryptedData1]
  let payload ← checkedSlice .outOfBounds (generatedEncryptedData c info nodes) encryptedDataSizeCutoff payloadSize
  return tag ++ payload

def generateNintendoProbeTag (probeOui : UInt32) (probeData : UInt8) : Bytes :=
  if probeOui = 0 then []
  else
    [tagVendorSpecific, 5, (probeOui >>> 16).toUInt8, (probeOui >>> 8).toUInt8, probeOui.toUInt8,
      (probeOui >>> 24).toUInt8, probeData]

def generateNintendoTaggedParameters (c : Crypto) (info : NetworkInfo) (nodes : List NodeInfo) (probeOui : UInt32)
    (probeData : UInt8) : Except Fault Bytes := do
  assert (info.maxNodes = nodes.length)
  let buffer := generateNintendoDummyTag
  let probeTag := generateNintendoProbeTag probeOui probeData
  let networkInfoTag ← generateNintendoNetworkInfoTag c info
  let firstDataTag ← generateNintendoFirstEncryptedDataTag c info nodes
  let secondDataTag ← generateNintendoSecondEncryptedDataTag c info nodes
  return probeTag ++ buffer ++ networkInfoTag ++ firstDataTag ++ secondDataTag

def generateBeaconFrame (c : Crypto) (info : NetworkInfo) (nodes : List NodeInfo) (probeOui : UInt32)
    (probeData : UInt8) : Except Fault Bytes := do
  let nintendoTags ← generateNintendoTaggedParameters c info nodes probeOui probeData
  return generateFixedParameters ++ generateBasicTaggedParameters ++ nintendoTags

@[simp] theorem length_toBigEndian (n x : Nat) : (toBigEndian n x).length = n := by simp [toBigEndian]

@[simp] theorem length_beaconNodeInfo (node : NodeInfo) : (beaconNodeInfo node).length = 0x1E := by
  simp [beaconNodeInfo, List.length_flatMap, List.map_const']

theorem length_nodes (nodes : List NodeInfo) : (nodes.flatMap beaconNodeInfo).length = 0x1E * nodes.length := by
  induction nodes with
  | nil => rfl
  | cons node nodes ih =>
    rw [List.flatMap_cons, List.length_append, length_beaconNodeInfo, ih, List.length_cons]
    omega

@[simp] theorem length_plainData (c : Crypto) (nodes : List NodeInfo) :
    (plainData c nodes).length = sizeOfBeaconData + 0x1E * nodes.length := by
  simp only [plainData, List.length_append, length_nodes, Vector.length_toList, List.length_cons, List.length_nil,
    sizeOfBeaconData]

@[simp] theorem length_generatedEncryptedData (c : Crypto) (info : NetworkInfo) (nodes : List NodeInfo) :
    (generatedEncryptedData c info nodes).length = sizeOfBeaconData + 0x1E * nodes.length := by
  rw [generatedEncryptedData, length_xorStream, length_plainData]

variable {c : Crypto} {info : NetworkInfo} {nodes : List NodeInfo} {probeOui : UInt32} {probeData : UInt8}
  {frame bytes : Bytes}

@[simp] theorem assert_eq_ok (condition : Bool) : assert condition = .ok () ↔ condition = true := by
  unfold assert
  split
  · simp_all
  · simp_all

def payload (tag : Bytes) : Bytes := tag.drop sizeOfEncryptedDataTag

/-- How much of the data the first tag holds. -/
def firstSize (nodes : List NodeInfo) : Nat := min encryptedDataSizeCutoff (nodes.length * sizeOfNodeInfo)

theorem payload_tag (id length oui₀ oui₁ oui₂ type : UInt8) (bytes : Bytes) :
    payload ([id, length] ++ [oui₀, oui₁, oui₂] ++ [type] ++ bytes) = bytes := rfl

theorem firstTag_of_le (c : Crypto) (info : NetworkInfo) (h : firstSize nodes ≤ sizeOfBeaconData + 0x1E * nodes.length) :
    ∃ first, generateNintendoFirstEncryptedDataTag c info nodes = .ok first ∧
      payload first = (generatedEncryptedData c info nodes).take (firstSize nodes) := by
  have hslice : checkedSlice Fault.outOfBounds (generatedEncryptedData c info nodes) 0 (firstSize nodes) =
      .ok ((generatedEncryptedData c info nodes).take (firstSize nodes)) :=
    checkedSlice_eq_ok_iff.mpr ⟨by simpa using h, rfl⟩
  change ∃ first, (checkedSlice Fault.outOfBounds _ 0 (firstSize nodes) >>= _) = _ ∧ _
  rw [hslice]
  exact ⟨_, rfl, payload_tag ..⟩

theorem firstTag_inside (h : generateNintendoFirstEncryptedDataTag c info nodes = .ok bytes) :
    firstSize nodes ≤ sizeOfBeaconData + 0x1E * nodes.length ∧ (payload bytes).length = firstSize nodes := by
  obtain ⟨part, hslice, h⟩ := ok_of_bind h
  obtain ⟨hle, rfl⟩ := checkedSlice_eq_ok_iff.mp hslice
  rw [length_generatedEncryptedData, Nat.zero_add] at hle
  cases h
  refine ⟨hle, ?_⟩
  rw [nintendoOUI, payload_tag, List.drop_zero]
  exact List.length_take_of_le (by rwa [length_generatedEncryptedData])

/-- The second tag is made when there is nothing left for it, or what is left fits and is there. -/
theorem secondTag_of_le (h : nodes.length * sizeOfNodeInfo ≤ encryptedDataSizeCutoff) :
    generateNintendoSecondEncryptedDataTag c info nodes = .ok [] := by
  rw [generateNintendoSecondEncryptedDataTag, if_pos h]
  rfl

theorem secondTag_inside (h : generateNintendoSecondEncryptedDataTag c info nodes = .ok bytes) :
    (nodes.length * sizeOfNodeInfo ≤ encryptedDataSizeCutoff ∨
      nodes.length * sizeOfNodeInfo ≤ sizeOfBeaconData + 0x1E * nodes.length) ∧
    (payload bytes).length = nodes.length * sizeOfNodeInfo - encryptedDataSizeCutoff := by
  rw [generateNintendoSecondEncryptedDataTag] at h
  split at h
  case isTrue hle =>
    cases h
    refine ⟨.inl hle, ?_⟩
    simp [payload, Nat.sub_eq_zero_of_le hle]
  case isFalse hlt =>
    obtain ⟨⟨⟩, -, h⟩ := ok_of_bind h
    obtain ⟨part, hslice, h⟩ := ok_of_bind h
    obtain ⟨hle, hpart⟩ := checkedSlice_eq_ok_iff.mp hslice
    have hlength : part.length = nodes.length * sizeOfNodeInfo - encryptedDataSizeCutoff := by
      rw [hpart]
      apply List.length_take_of_le
      rw [List.length_drop]
      omega
    rw [length_generatedEncryptedData] at hle
    cases h
    refine ⟨.inr (by omega), ?_⟩
    rw [nintendoOUI, payload_tag, hlength]

/-- What the assertions about a network ask. -/
structure Consistent (info : NetworkInfo) (nodes : List NodeInfo) : Prop where
  maxNodes : info.maxNodes = nodes.length
  ouiType : info.ouiType = tagNetworkInfo
  ouiValue : info.ouiValue.toList = nintendoOUI
  application : info.applicationDataSize.toNat ≤ applicationDataSize

theorem networkInfoTag_of_consistent (h : Consistent info nodes) :
    ∃ tag, generateNintendoNetworkInfoTag c info = .ok tag := by
  have happlication := h.application
  have hslice : checkedSlice Fault.outOfBounds info.applicationData.toList 0 info.applicationDataSize.toNat =
      .ok (info.applicationData.toList.take info.applicationDataSize.toNat) :=
    checkedSlice_eq_ok_iff.mpr ⟨by simpa [applicationDataSize] using happlication, rfl⟩
  rw [generateNintendoNetworkInfoTag]
  simp only [h.ouiType, h.ouiValue, happlication, decide_true, hslice]
  exact ⟨_, rfl⟩

theorem parts_of_frame (h : generateBeaconFrame c info nodes probeOui probeData = .ok frame) :
    Consistent info nodes ∧ (∃ first, generateNintendoFirstEncryptedDataTag c info nodes = .ok first) ∧
      ∃ second, generateNintendoSecondEncryptedDataTag c info nodes = .ok second := by
  obtain ⟨tags, h, -⟩ := ok_of_bind h
  obtain ⟨⟨⟩, hmax, h⟩ := ok_of_bind h
  obtain ⟨networkTag, hnetwork, h⟩ := ok_of_bind h
  obtain ⟨first, hfirst, h⟩ := ok_of_bind h
  obtain ⟨second, hsecond, -⟩ := ok_of_bind h
  obtain ⟨⟨⟩, htype, hnetwork⟩ := ok_of_bind hnetwork
  obtain ⟨⟨⟩, hvalue, hnetwork⟩ := ok_of_bind hnetwork
  obtain ⟨⟨⟩, happlication, -⟩ := ok_of_bind hnetwork
  simp only [assert_eq_ok, decide_eq_true_eq] at hmax htype hvalue happlication
  exact ⟨⟨hmax, htype, hvalue, happlication⟩, ⟨first, hfirst⟩, second, hsecond⟩

theorem generateBeaconFrame_completes_iff :
    (∃ frame, generateBeaconFrame c info nodes probeOui probeData = .ok frame) ↔
      Consistent info nodes ∧ nodes.length ≤ 1 := by
  constructor
  · rintro ⟨frame, h⟩
    obtain ⟨hconsistent, ⟨first, hfirst⟩, second, hsecond⟩ := parts_of_frame h
    refine ⟨hconsistent, ?_⟩
    have hfirstSize := (firstTag_inside hfirst).1
    have hsecondSize := (secondTag_inside hsecond).1
    simp only [firstSize, encryptedDataSizeCutoff, sizeOfNodeInfo, sizeOfBeaconData] at hfirstSize hsecondSize
    omega
  · rintro ⟨hconsistent, hlength⟩
    obtain ⟨networkTag, hnetwork⟩ := networkInfoTag_of_consistent (c := c) hconsistent
    have hsize : firstSize nodes ≤ sizeOfBeaconData + 0x1E * nodes.length := by
      simp only [firstSize, encryptedDataSizeCutoff, sizeOfNodeInfo, sizeOfBeaconData]
      omega
    have hnone : nodes.length * sizeOfNodeInfo ≤ encryptedDataSizeCutoff := by
      simp only [encryptedDataSizeCutoff, sizeOfNodeInfo]
      omega
    obtain ⟨first, hfirst, -⟩ := firstTag_of_le c info hsize
    rw [generateBeaconFrame, generateNintendoTaggedParameters, hnetwork, hfirst, secondTag_of_le hnone]
    simp only [hconsistent.maxNodes, decide_true]
    exact ⟨_, rfl⟩

def Survives (c : Crypto) (info : NetworkInfo) (nodes : List NodeInfo) (probeOui : UInt32) (probeData : UInt8) : Prop :=
  ∃ frame first second header, generateBeaconFrame c info nodes probeOui probeData = .ok frame ∧
    generateNintendoFirstEncryptedDataTag c info nodes = .ok first ∧
    generateNintendoSecondEncryptedDataTag c info nodes = .ok second ∧ header.length = sizeOfBeaconData ∧
    decryptBeacon c info (payload first ++ payload second) = header ++ nodes.flatMap beaconNodeInfo

theorem length_payloads {first second : Bytes} (hfirst : generateNintendoFirstEncryptedDataTag c info nodes = .ok first)
    (hsecond : generateNintendoSecondEncryptedDataTag c info nodes = .ok second) :
    (decryptBeacon c info (payload first ++ payload second)).length = nodes.length * sizeOfNodeInfo := by
  rw [decryptBeacon, length_xorStream, List.length_append, (firstTag_inside hfirst).2, (secondTag_inside hsecond).2,
    firstSize]
  omega

/-- The data of the nodes never survives: what the tags hold has another length. -/
theorem not_survives (c : Crypto) (info : NetworkInfo) (nodes : List NodeInfo) (probeOui : UInt32) (probeData : UInt8) :
    ¬ Survives c info nodes probeOui probeData := by
  rintro ⟨frame, first, second, header, -, hfirst, hsecond, hheader, hdata⟩
  have hlength := congrArg List.length hdata
  rw [length_payloads hfirst hsecond, List.length_append, hheader, length_nodes] at hlength
  simp only [sizeOfNodeInfo, sizeOfBeaconData] at hlength
  omega

def zeroCrypto : Crypto where
  md5 _ := Vector.replicate 16 0
  sha1 _ := Vector.replicate 20 0
  keystream _ _ := 0

def soloNetwork : NetworkInfo where
  maxNodes := 1
  hostMacAddress := Vector.replicate 6 0
  ouiValue := #v[0x00, 0x1F, 0x32]
  ouiType := tagNetworkInfo
  wlanCommId := 0
  id := 0
  networkId := 0

/-- The frame of a network of one node is made, but its tags end before the node id. -/
theorem solo_not_survives :
    (∃ frame, generateBeaconFrame zeroCrypto soloNetwork [{ networkNodeId := 1 }] 0 0 = .ok frame) ∧
      ¬ Survives zeroCrypto soloNetwork [{ networkNodeId := 1 }] 0 0 := by
  constructor
  · rw [generateBeaconFrame_completes_iff]
    exact ⟨⟨rfl, rfl, rfl, by decide⟩, by decide⟩
  · rintro ⟨frame, first, second, header, -, hfirst, hsecond, hheader, hdata⟩
    have hlength := congrArg List.length hdata
    rw [length_payloads hfirst hsecond, List.length_append, hheader, length_nodes] at hlength
    exact absurd hlength (by decide)

end SweepDSEmu.Service.NWM.Beacon
