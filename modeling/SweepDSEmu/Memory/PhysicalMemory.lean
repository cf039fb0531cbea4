import SweepDSEmu.Lib.FillLoop
import SweepDSEmu.Memory.PageTable

/-!
# Physical memory

The regions that `GetPhysMemRegionInfo` finds and the references into them.  The contents of all the regions are one
function of the physical address.  The lookup remembers the last region; no address belongs to two regions, so that the
lookup without a memory finds the same one.
-/

namespace SweepDSEmu.Memory

structure PhysMemRegionInfo where
  regionStart : Nat
  regionEnd : Nat
  deriving DecidableEq

def dspRamPaddr : Nat := 0x1FF00000
def dspRamSize : Nat := 0x00080000
def n3dsExtraRamPaddr : Nat := 0x1F000000
def n3dsExtraRamSize : Nat := 0x00400000

def memoryAreas : List (Nat × Nat) :=
  [(vramPaddr, vramSize), (dspRamPaddr, dspRamSize), (fcramPaddr, fcramN3dsSize), (n3dsExtraRamPaddr, n3dsExtraRamSize)]

def getPhysMemRegionInfo (address : Nat) : Option PhysMemRegionInfo :=
  (memoryAreas.find? fun area => address ≥ area.1 ∧ address ≤ area.1 + area.2).map fun area =>
    { regionStart := area.1, regionEnd := area.1 + area.2 }

/-- What a memory reference is used for that it does not allow. -/
inductive RefFault where
  | assertion
  | outOfBounds
  deriving DecidableEq

/-- The `MemoryRef` of a physical address, with the number of bytes from it to the end of the region. -/
structure PhysicalRef where
  address : Nat
  size : Nat
  deriving DecidableEq

def getPhysicalRef (address : Nat) : Option PhysicalRef :=
  (getPhysMemRegionInfo address).map fun info => { address := address, size := info.regionEnd - address }

def isValidPhysicalAddress (address : Nat) : Bool := (getPhysicalRef address).isSome

/-- The bytes of the physical memory. -/
abbrev Contents := Nat → UInt8

namespace PhysicalRef

/-- The bytes from an offset on lie in the region. -/
def holds (ref : PhysicalRef) (offset n : Nat) : Prop := n = 0 ∨ offset + n ≤ ref.size

instance (ref : PhysicalRef) (offset n : Nat) : Decidable (ref.holds offset n) := inferInstanceAs (Decidable (_ ∨ _))

def copyOut (ref : PhysicalRef) (offset n : Nat) (mem : Contents) : Except RefFault Contents :=
  if ref.holds offset n then .ok fun i => mem (ref.address + offset + i) else .error .outOfBounds

def copyIn (ref : PhysicalRef) (offset n : Nat) (bytes : Nat → UInt8) (mem : Contents) : Except RefFault Contents :=
  if ref.holds offset n then .ok (overwrite mem (ref.address + offset) n bytes) else .error .outOfBounds

variable {ref : PhysicalRef} {offset n : Nat} {bytes : Nat → UInt8} {mem : Contents}

theorem copyOut_of_holds (h : ref.holds offset n) :
    ref.copyOut offset n mem = .ok fun i => mem (ref.address + offset + i) := if_pos h

theorem copyIn_of_holds (h : ref.holds offset n) :
    ref.copyIn offset n bytes mem = .ok (overwrite mem (ref.address + offset) n bytes) := if_pos h

end PhysicalRef

theorem memoryAreas_disjoint :
    ∀ x ∈ memoryAreas, ∀ y ∈ memoryAreas, x = y ∨ x.1 + x.2 < y.1 ∨ y.1 + y.2 < x.1 := by decide

theorem getPhysicalRef_eq {address : Nat} {info : PhysMemRegionInfo} (h : getPhysMemRegionInfo address = some info) :
    getPhysicalRef address = some { address := address, size := info.regionEnd - address } := by
  unfold getPhysicalRef
  rw [h]
  rfl

theorem getPhysMemRegionInfo_mem {address : Nat} {info : PhysMemRegionInfo} (h : getPhysMemRegionInfo address = some info) :
    info.regionStart ≤ address ∧ address ≤ info.regionEnd ∧ info.regionEnd ≤ 0x30000000 := by
  obtain ⟨area, harea, rfl⟩ := Option.map_eq_some_iff.mp h
  have hbounds := List.find?_some harea
  have hmem : ∀ area ∈ memoryAreas, area.1 + area.2 ≤ 0x30000000 := by decide
  have hend := hmem area (List.mem_of_find?_eq_some harea)
  simp only [decide_eq_true_eq] at hbounds
  exact ⟨hbounds.1, hbounds.2, hend⟩

theorem getPhysMemRegionInfo_eq {address a : Nat} {info : PhysMemRegionInfo}
    (h : getPhysMemRegionInfo address = some info) (hstart : info.regionStart ≤ a) (hend : a ≤ info.regionEnd) :
    getPhysMemRegionInfo a = some info := by
  unfold getPhysMemRegionInfo at h ⊢
  obtain ⟨area, harea, rfl⟩ := Option.map_eq_some_iff.mp h
  have hmem := List.mem_of_find?_eq_some harea
  cases hfind : memoryAreas.find? fun area => decide (a ≥ area.1 ∧ a ≤ area.1 + area.2) with
  | none =>
    have hnot := List.find?_eq_none.mp hfind area hmem
    simp only [decide_eq_true_eq] at hnot
    exact absurd ⟨hstart, hend⟩ hnot
  | some area' =>
    have hbounds := List.find?_some hfind
    simp only [decide_eq_true_eq] at hbounds
    rcases memoryAreas_disjoint area hmem area' (List.mem_of_find?_eq_some hfind) with rfl | hlt | hlt
    · rfl
    · dsimp only at hend
      omega
    · dsimp only at hstart
      omega

end SweepDSEmu.Memory
