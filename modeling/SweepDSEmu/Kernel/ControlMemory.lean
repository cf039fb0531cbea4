import SweepDSEmu.Kernel.FreeAreas
import SweepDSEmu.Kernel.ProcessOwnership
import SweepDSEmu.Kernel.RegionAllocator

/-!
# When svcControlMemory returns

The guest chooses the arguments of `svcControlMemory`, and not all of them are checked before they reach an assertion.
For each operation `Accepts` says which arguments are safe.

* `MEMOP_PROTECT` checks nothing, `MEMOP_MAP` and `MEMOP_UNMAP` check the source only.
* `MEMOP_COMMIT` is safe for the heap.  For the linear heap the addresses must be free, although only the FCRAM is
  asked for.
* `MEMOP_FREE` gives FCRAM back that may be mapped twice, or that may belong to another address.
-/

namespace SweepDSEmu

open IntervalSet

/-- A call returns a result: no assertion fails, and no iterator that points to no area is used. -/
def Completes {α : Type} (call : Except Fault α) : Prop := ∃ a, call = .ok a

def FcramPage (offset : Nat) : Prop := offset % pageSize = 0 ∧ offset ≤ fcramN3dsSize

namespace ProcessMemory

structure WellFormed (s : ProcessMemory) : Prop where
  fcram : 0 < s.fcram
  reachable : s.process.vmManager.Reachable
  unlocked : s.region.isLocked = false
  limit : s.region.base + s.region.size ≤ fcramN3dsSize
  used : s.region.used < 2 ^ 32
  normal : s.region.freeBlocks.Normal
  pages : ∀ p ∈ s.region.freeBlocks, FcramPage p.1 ∧ FcramPage p.2
  heap : ∀ x p, heapVaddr ≤ x → x < heapVaddrEnd → s.backing x = some p →
    s.fcram ≤ p ∧ p < s.fcram + fcramN3dsSize

def InSpace (target size : Nat) : Prop := 0 < size ∧ target + size ≤ VMManager.maxAddress

/-- The address is strictly inside an area that `Map` does not take memory from. -/
def Refused (s : ProcessMemory) (source : Nat) : Prop :=
  ∃ p ∈ s.process.vmManager.vmaMap, p.2.base < source ∧ source < p.2.stop ∧
    VMManager.unexpected .privateMemory VMAPermission.readWrite p.2 = true

/-- The ranges that `Map` returns for. -/
def MapAccepts (s : ProcessMemory) (target source size : Nat) : Prop :=
  OutsideHeap source size ∨ Overlapping target source size ∨
    target < VMManager.maxAddress ∧ (0 < size ∨ s.backing target ≠ none ∨ s.Refused source)

/-- The ranges that `Unmap` returns for. -/
def UnmapAccepts (target source size : Nat) : Prop :=
  OutsideHeap source size ∨ Overlapping target source size ∨ InSpace target size

def LinearFree (s : ProcessMemory) (target size : Nat) : Prop :=
  0 < size ∧ s.process.vmManager.FreeArea target (target + size)

def firstBlock (s : ProcessMemory) (size : Nat) : Option (Nat × Nat) :=
  s.region.freeBlocks.find? fun p => p.2 - p.1 ≥ size

/-- The ranges that `LinearAllocate` returns for. -/
def LinearAccepts (s : ProcessMemory) (target size : Nat) : Prop :=
  if target = 0 then ∀ p ∈ s.firstBlock size, s.LinearFree (s.getLinearHeapAreaAddress + p.1) size
  else s.OutsideLinearHeap target size ∨
    (s.region.freeBlocks.contains (target - s.getLinearHeapAreaAddress) (target - s.getLinearHeapAreaAddress + size) →
      s.LinearFree target size)

/-- The pages of the range are allocated in the region, each of them once. -/
def Allocated (s : ProcessMemory) (target size : Nat) : Prop :=
  (∀ x y p, target ≤ x → x < target + size → target ≤ y → y < target + size → s.backing x = some p →
    s.backing y = some p → x = y) ∧
  ∀ o ∈ s.behind target (target + size), o ∉ s.free

def LinearAllocated (s : ProcessMemory) (target size : Nat) : Prop :=
  ∀ x, target ≤ x → x < target + size → x - s.getLinearHeapAreaAddress ∉ s.free

/-- The ranges that `MEMOP_FREE` returns for. -/
def FreeAccepts (s : ProcessMemory) (target size : Nat) : Prop :=
  s.Mapped target size →
    if heapVaddr ≤ target ∧ target < heapVaddrEnd then OutsideHeap target size ∨ s.Allocated target size
    else s.OutsideLinearHeap target size ∨ s.LinearAllocated target size

def Accepts (s : ProcessMemory) (addr0 addr1 size : Nat) : ControlMemoryOperation → Prop
  | .free => s.FreeAccepts addr0 size
  | .commit true => s.LinearAccepts addr0 size
  | .commit false => True
  | .map => s.MapAccepts addr0 addr1 size
  | .unmap => UnmapAccepts addr0 addr1 size
  | .protect => InSpace addr0 size

variable {s s' : ProcessMemory} {target source size : Nat} {perms : VMAPermission}

private theorem not_completes_error {α : Type} {f : Fault} : ¬ Completes (.error f : Except Fault α) := nofun

private theorem completes_ok {α : Type} (a : α) : Completes (.ok a) := ⟨a, rfl⟩

private theorem heapRange (ht : target < 2 ^ 32) (hs : size < 2 ^ 32) (h : ¬ OutsideHeap target size) :
    heapVaddr ≤ target ∧ target + size ≤ heapVaddrEnd := by
  unfold OutsideHeap addU32 at h
  omega

theorem reprotectRange_returns_iff (h : s.WellFormed) (ht : target < 2 ^ 32) (hz : size < 2 ^ 32)
    (halign : target % pageSize = 0) (hsize : size % pageSize = 0) :
    Completes (s.reprotectRange target size perms) ↔ InSpace target size := by
  have hm := h.reachable.sound
  constructor
  · rintro ⟨r, hr⟩
    obtain ⟨⟨c, m⟩, hcall, -⟩ := ok_of_bind hr
    have hrange := VMManager.rangeOk_of_reprotectRange ht hz (unwrap_eq_ok.mp hcall)
    exact ⟨hrange.pos, hrange.fits⟩
  · rintro ⟨hpos, hfits⟩
    have hop : VMManager.Op.InRange (.reprotectRange target size perms) := ⟨hsize, halign, hpos, hfits⟩
    obtain ⟨⟨c, m⟩, hcall⟩ := Option.isSome_iff_exists.mp (VMManager.exec_isSome hm.tiled hm.unlocked hop)
    have hcall : s.process.vmManager.reprotectRange target size perms = some (c, m) := hcall
    unfold reprotectRange
    rw [hcall]
    exact completes_ok _

private theorem changeMemoryState_total (hm : s.process.vmManager.Sound) (hrange : VMManager.RangeOk source size)
    (es ns : MemoryState) (ep np : VMAPermission) :
    ∃ r m, s.process.vmManager.exec (.changeMemoryState source size es ep ns np) = some (r, m) ∧
      s.changeMemoryState source size es ep ns np = .ok (r, s.setVMManager m) := by
  have hop : VMManager.Op.InRange (.changeMemoryState source size es ep ns np) := hrange
  obtain ⟨⟨r, m⟩, hcall⟩ := Option.isSome_iff_exists.mp (VMManager.exec_isSome hm.tiled hm.unlocked hop)
  exact ⟨r, m, hcall, changeMemoryState_returns hcall⟩

theorem unmap_returns_iff (h : s.WellFormed) (ht : target < 2 ^ 32) (hsrc : source < 2 ^ 32) (hz : size < 2 ^ 32)
    (halign : target % pageSize = 0) (hsalign : source % pageSize = 0) (hsize : size % pageSize = 0) :
    Completes (s.unmap target source size perms false) ↔ UnmapAccepts target source size := by
  have hm := h.reachable.sound
  unfold UnmapAccepts
  by_cases hout : OutsideHeap source size
  · refine iff_of_true ?_ (Or.inl hout)
    unfold unmap
    rw [if_pos (by simpa using hout)]
    exact completes_ok _
  by_cases hover : Overlapping target source size
  · refine iff_of_true ?_ (Or.inr (Or.inl hover))
    unfold unmap
    rw [if_neg (by simpa using hout), if_pos hover]
    exact completes_ok _
  rw [or_iff_right hout, or_iff_right hover]
  obtain ⟨-, hheap⟩ := heapRange hsrc hz hout
  constructor
  · rintro ⟨r, hr⟩
    unfold unmap at hr
    rw [if_neg (by simpa using hout), if_neg hover] at hr
    obtain ⟨⟨c, m⟩, hcall, -⟩ := ok_of_bind hr
    have hrange := VMManager.rangeOk_of_unmapRange ht hz (unwrap_eq_ok.mp hcall)
    exact ⟨hrange.pos, hrange.fits⟩
  · rintro ⟨hpos, hfits⟩
    have hop : VMManager.Op.InRange (.unmapRange target size) := ⟨hsize, halign, hpos, hfits⟩
    have hop' : VMManager.Op.IsU32 (.unmapRange target size) := ⟨ht, hz⟩
    obtain ⟨⟨c, m⟩, hcall⟩ := Option.isSome_iff_exists.mp (VMManager.exec_isSome hm.tiled hm.unlocked hop)
    have hm₁ := hm.exec hop' hcall
    have hunmap : s.process.vmManager.unmapRange target size = some (c, m) := hcall
    rw [unmap_of_some (fun hp : false = false ∧ OutsideHeap source size => hout hp.2) hover hunmap]
    split
    · exact completes_ok _
    · have hrange : VMManager.RangeOk source size := by
        refine ⟨hsize, hsalign, hpos, ?_⟩
        unfold heapVaddrEnd at hheap
        unfold VMManager.maxAddress
        omega
      obtain ⟨r, m', -, hchange⟩ := changeMemoryState_total (s := s.setVMManager m) hm₁ hrange (sourceState false)
        .privateMemory VMAPermission.none perms
      exact ⟨_, hchange⟩

private theorem occupied_eq (hm : s.process.vmManager.Sound) {pre post : Areas} {v : VirtualMemoryArea}
    (hsplit : s.process.vmManager.vmaMap = pre ++ (v.base, v) :: post) (hv : v.base ≤ target) (hv' : target < v.stop)
    (hwrap : target + size < 2 ^ 32) :
    s.process.vmManager.occupied target size = .ok (v.type ≠ .free || v.stop < target + size) := by
  have htiled := hm.tiled
  unfold VMManager.Tiled at htiled
  rw [hsplit] at htiled
  have hstop : v.base + v.size ≤ VMManager.maxAddress := (tiles_split.mp htiled).2.2.2.le
  have hmax : VMManager.maxAddress < 2 ^ 32 := by decide
  unfold VMManager.occupied
  rw [VMManager.findVMA_eq hm.tiled hsplit hv hv', Option.bind_some, VMManager.get?_area hm.tiled hsplit]
  simp only [unwrap, bind, Except.bind, pure, Except.pure, addU32_of_lt (show v.base + v.size < 2 ^ 32 by omega),
    addU32_of_lt hwrap]
  rfl

private theorem backing_of_free (hm : s.process.vmManager.Sound) {pre post : Areas} {v : VirtualMemoryArea}
    (hsplit : s.process.vmManager.vmaMap = pre ++ (v.base, v) :: post) (hv : v.base ≤ target) (hv' : target < v.stop) :
    s.backing target = none ↔ v.type = .free := by
  have htiled := hm.tiled
  unfold VMManager.Tiled at htiled
  have habs : absAt s.process.vmManager.vmaMap target = some (v.attrAt target) := by
    rw [hsplit] at htiled ⊢
    exact absAt_split_mem htiled hv hv'
  unfold backing VMManager.backing
  rw [habs, Option.bind_some]
  have htype : (v.attrAt target).type = v.type := rfl
  rw [htype]
  cases v.type <;> simp

/-- An empty range of the heap passes the check of `ChangeMemoryState` unless it lies inside an area of another state,
and then it trips the assertion on the size. -/
private theorem changeMemoryState_empty (hm : s.process.vmManager.Sound) (hlt : source < VMManager.maxAddress)
    (ns : MemoryState) (np : VMAPermission) :
    Completes (s.changeMemoryState source 0 .privateMemory VMAPermission.readWrite ns np) ↔ s.Refused source := by
  have htiled := hm.tiled
  obtain ⟨pre, w, post, hsplit, hw, hw'⟩ := htiled.find (Nat.zero_le source) hlt
  have hmax : VMManager.maxAddress < 2 ^ 32 := by decide
  have hadd : addU32 source 0 = source := addU32_of_lt (by omega)
  -- the only area that the check looks at is the one around the source
  have hany : ((s.process.vmManager.vmaMap.range w.base (s.process.vmManager.vmaMap.lowerBound source)).any fun entry =>
      VMManager.unexpected .privateMemory VMAPermission.readWrite entry.2) = true ↔ s.Refused source := by
    rw [List.any_eq_true]
    constructor
    · rintro ⟨⟨k, u⟩, hu, hun⟩
      obtain ⟨hmem, hle, hlt⟩ := (OrderedMap.mem_range_lowerBound htiled.sorted).mp hu
      obtain ⟨hk, hpos, -, -⟩ := htiled.mem hmem
      obtain rfl : k = u.base := hk
      have hpos : 0 < u.size := hpos
      refine ⟨(u.base, u), hmem, hlt, ?_, hun⟩
      simp only at hle hlt ⊢
      rcases VMManager.area_cases hm.tiled hsplit hmem with h | rfl | h
      · unfold VirtualMemoryArea.stop at *
        omega
      · exact hw'
      · omega
    · rintro ⟨⟨k, u⟩, hmem, hlt, hlt', hun⟩
      obtain ⟨hk, hpos, -, -⟩ := htiled.mem hmem
      obtain rfl : k = u.base := hk
      refine ⟨(u.base, u), (OrderedMap.mem_range_lowerBound htiled.sorted).mpr ⟨hmem, ?_, hlt⟩, hun⟩
      simp only at hlt hlt' ⊢
      rcases VMManager.area_cases hm.tiled hsplit hmem with h | rfl | h <;> omega
  rw [← hany]
  unfold changeMemoryState VMManager.changeMemoryState
  simp only [hm.unlocked, Bool.false_eq_true, if_false, hadd, VMManager.findVMA_eq hm.tiled hsplit hw hw']
  split
  · rename_i hyes
    exact iff_of_true (completes_ok _) hyes
  · rename_i hno
    refine iff_of_false ?_ hno
    have hnone : s.process.vmManager.carveVMARange source 0 = none := by
      by_contra hsome
      obtain ⟨r, hr⟩ := Option.ne_none_iff_exists'.mp hsome
      exact absurd (VMManager.rangeOk_of_carve (by omega) (by decide) hr).pos (by decide)
    rw [hnone]
    exact not_completes_error

private theorem mapAlias_completes (hm : s.process.vmManager.Sound) (halign : target % pageSize = 0)
    (hrange : VMManager.RangeOk source size) (hfits : target + size ≤ VMManager.maxAddress)
    (hfree : s.process.vmManager.FreeArea target (target + size)) (state : MemoryState) :
    Completes (s.mapAlias target source size state perms) := by
  have hmax : VMManager.maxAddress < 2 ^ 32 := by decide
  have hsfits := hrange.fits
  obtain ⟨res, hres, -⟩ := VMManager.getBackingBlocksForRange_returns hm.tiled hrange.pos hrange.fits
  unfold mapAlias
  rw [hres]
  cases res with
  | error c => exact completes_ok _
  | ok blocks =>
    have hblocks := VMManager.getBackingBlocksForRange_aligned hm hrange.alignedTarget hrange.alignedSize (by omega) hres
    have hlists := VMManager.getBackingBlocksForRange_lists ⟨hm.tiled, hm.unlocked⟩ (by omega) hres
    have htotal := hlists.size_eq
    obtain ⟨m', hrun⟩ := VMManager.mapBlocks_returns (e := target + size) hm state perms blocks hblocks halign (by omega)
      hfits (fun _ => hfree)
    simp only [unwrap, bind, Except.bind, pure, Except.pure, hrun]
    exact completes_ok _

theorem map_returns_iff (h : s.WellFormed) (hsrc : source < 2 ^ 32) (hz : size < 2 ^ 32)
    (halign : target % pageSize = 0) (hsalign : source % pageSize = 0) (hsize : size % pageSize = 0) :
    Completes (s.map target source size perms false) ↔ s.MapAccepts target source size := by
  have hm := h.reachable.sound
  unfold MapAccepts
  by_cases hout : OutsideHeap source size
  · refine iff_of_true ?_ (Or.inl hout)
    unfold map
    rw [if_pos (by simpa using hout)]
    exact completes_ok _
  by_cases hover : Overlapping target source size
  · refine iff_of_true ?_ (Or.inr (Or.inl hover))
    unfold map
    rw [if_neg (by simpa using hout), if_pos hover]
    exact completes_ok _
  rw [or_iff_right hout, or_iff_right hover]
  obtain ⟨hheap, hheapEnd⟩ := heapRange hsrc hz hout
  unfold heapVaddr heapVaddrEnd at *
  unfold map
  rw [if_neg (by simpa using hout), if_neg hover]
  by_cases hlt : target < VMManager.maxAddress
  swap
  · refine iff_of_false ?_ fun h => hlt h.1
    unfold VMManager.occupied
    rw [VMManager.findVMA_none _ (Nat.not_lt.mp hlt)]
    exact not_completes_error
  rw [and_iff_right hlt]
  have htiled := hm.tiled
  unfold VMManager.Tiled at htiled
  obtain ⟨pre, v, post, hsplit, hv, hv'⟩ := htiled.find (Nat.zero_le target) hlt
  have hmax : VMManager.maxAddress = 0x40000000 := rfl
  have hbacking : s.backing target ≠ none ↔ v.type ≠ .free := (backing_of_free hm hsplit hv hv').not
  rw [occupied_eq hm hsplit hv hv' (by omega), ok_bind, hbacking]
  by_cases hocc : v.type ≠ .free ∨ v.stop < target + size
  · have hdec : (decide (v.type ≠ .free) || decide (v.stop < target + size)) = true := by simpa using hocc
    rw [hdec, if_pos rfl]
    refine iff_of_true (completes_ok _) ?_
    rcases hocc with hocc | hocc
    · exact Or.inr (Or.inl hocc)
    · exact Or.inl (by omega)
  have hdec : (decide (v.type ≠ .free) || decide (v.stop < target + size)) = false := by simpa using hocc
  rw [hdec]
  rw [not_or, not_not, Nat.not_lt] at hocc
  obtain ⟨hfree, hfits⟩ := hocc
  have hstop : v.stop ≤ VMManager.maxAddress := by
    rw [hsplit] at htiled
    exact (tiles_split.mp htiled).2.2.2.le
  simp only [Bool.false_eq_true, if_false]
  rcases Nat.eq_zero_or_pos size with rfl | hpos
  · -- an empty range
    rw [or_iff_right (by omega), or_iff_right (not_not.mpr hfree)]
    rw [← changeMemoryState_empty hm (by omega) .aliased VMAPermission.readWrite]
    constructor
    · rintro ⟨r, hr⟩
      obtain ⟨a, ha, -⟩ := ok_of_bind hr
      exact ⟨a, ha⟩
    · rintro ⟨⟨r, s₁⟩, hr⟩
      rw [hr, ok_bind]
      simp only
      split
      · exact completes_ok _
      · rename_i hsucc
        obtain rfl : r = .success := not_not.mp hsucc
        obtain ⟨m₁, -, hexec⟩ := changeMemoryState_exec hr
        have hrange := VMManager.rangeOk_of_changeMemoryState hm.unlocked hsrc hz hexec
        exact absurd hrange.pos (by decide)
  · refine iff_of_true ?_ (Or.inl hpos)
    have hrange : VMManager.RangeOk source size := ⟨hsize, hsalign, hpos, by omega⟩
    obtain ⟨r, m₁, hexec, hchange⟩ := changeMemoryState_total hm hrange .privateMemory .aliased VMAPermission.readWrite
      VMAPermission.readWrite
    rw [hchange, ok_bind]
    simp only
    split
    · exact completes_ok _
    · rename_i hsucc
      obtain rfl : r = .success := not_not.mp hsucc
      obtain ⟨-, hm₁, -⟩ := mapped_of_changeMemoryState hm hsrc hz hexec
      have hkeeps := VMManager.changeMemoryState_keeps_free hm hsrc hz hexec (v.base, v) (by rw [hsplit]; simp) hfree
      exact mapAlias_completes (s := s.setVMManager m₁) hm₁ halign hrange (by omega)
        ⟨(v.base, v), hkeeps, hfree, hv, hfits⟩ .aliasMemory

private theorem heapAllocateLoop_pages (blocks result : IntervalSet) (rest : Nat)
    (hblocks : ∀ p ∈ blocks, FcramPage p.1 ∧ FcramPage p.2) (hresult : ∀ p ∈ result, FcramPage p.1 ∧ FcramPage p.2)
    (hrest : rest % pageSize = 0) :
    ∀ p ∈ (MemoryRegionInfo.heapAllocateLoop blocks result rest).1, FcramPage p.1 ∧ FcramPage p.2 := by
  induction blocks generalizing result rest with
  | nil => exact hresult
  | cons q blocks ih =>
    obtain ⟨lower, upper⟩ := q
    obtain ⟨hlower, hupper⟩ := hblocks _ List.mem_cons_self
    simp only at hlower hupper
    unfold MemoryRegionInfo.heapAllocateLoop
    split
    · refine ends_add hresult ?_ hupper
      unfold FcramPage pageSize at *
      omega
    · refine ih _ _ (fun p hp => hblocks p (List.mem_cons_of_mem _ hp)) (ends_add hresult hlower hupper) ?_
      unfold FcramPage pageSize at *
      omega

theorem heapAllocate_pages {r r' : MemoryRegionInfo} {blocks : IntervalSet}
    (hpages : ∀ p ∈ r.freeBlocks, FcramPage p.1 ∧ FcramPage p.2) (hsize : size % pageSize = 0)
    (h : r.heapAllocate size = .ok (blocks, r')) : ∀ p ∈ blocks, FcramPage p.1 ∧ FcramPage p.2 := by
  obtain ⟨-, -, h⟩ := ok_of_bind h
  simp only at h
  split at h
  · cases h
    exact fun p hp => absurd hp List.not_mem_nil
  · cases h
    exact heapAllocateLoop_pages _ _ _ (fun p hp => hpages p (List.mem_reverse.mp hp))
      (fun p hp => absurd hp List.not_mem_nil) hsize

theorem heapAllocate_returns (h : s.WellFormed) (ht : target < 2 ^ 32) (hz : size < 2 ^ 32)
    (halign : target % pageSize = 0) (hsize : size % pageSize = 0) (state : MemoryState) :
    Completes (s.heapAllocate target size perms state false) := by
  have hm := h.reachable.sound
  unfold heapAllocate
  by_cases hout : OutsideHeap target size
  · rw [if_pos (by simpa using hout)]
    exact completes_ok _
  rw [if_neg (by simpa using hout)]
  obtain ⟨hheap, hheapEnd⟩ := heapRange ht hz hout
  have hmax : VMManager.maxAddress = 0x40000000 := rfl
  unfold heapVaddr heapVaddrEnd at *
  have htiled := hm.tiled
  obtain ⟨pre, v, post, hsplit, hv, hv'⟩ := htiled.find (Nat.zero_le target) (show target < VMManager.maxAddress by omega)
  rw [occupied_eq hm hsplit hv hv' (by omega), ok_bind]
  split
  · exact completes_ok _
  rename_i hocc
  have hocc : ¬ (v.type ≠ .free ∨ v.stop < target + size) := by simpa using hocc
  rw [not_or, not_not, Nat.not_lt] at hocc
  obtain ⟨hfree, hfits⟩ := hocc
  rcases MemoryRegionInfo.heapAllocate_takes h.unlocked h.normal h.used size with ⟨-, hnone⟩ |
    ⟨-, blocks, r', hsome, hnormal, htakes, -⟩
  · rw [hnone]
    exact completes_ok _
  · rw [hsome, ok_bind]
    simp only
    split
    · exact completes_ok _
    have hpages := heapAllocate_pages h.pages hsize hsome
    rw [VMManager.mapIntervals_eq _ _ _ _ fun p hp => ⟨(hnormal.nonempty p hp).le, (hpages p hp).2.2⟩]
    have htotal : VMManager.blocksSize (blocks.map fun p => (s.fcram + p.1, p.2 - p.1)) = size := by
      rw [← htakes.total, VMManager.blocksSize, List.map_map]
      rfl
    have hfcram := h.fcram
    have hblocks : ∀ q ∈ blocks.map fun p => (s.fcram + p.1, p.2 - p.1), q.1 ≠ 0 ∧ q.2 % pageSize = 0 ∧ 0 < q.2 := by
      intro q hq
      obtain ⟨p, hp, rfl⟩ := List.mem_map.mp hq
      have hlt := hnormal.nonempty p hp
      obtain ⟨⟨h1, -⟩, h2, -⟩ := hpages p hp
      refine ⟨by simp only; omega, ?_, by simp only; omega⟩
      unfold pageSize at *
      simp only
      omega
    obtain ⟨m', hrun⟩ := VMManager.mapBlocks_returns (e := target + size) hm state perms _ hblocks halign (by omega)
      (by omega) fun _ => ⟨(v.base, v), by rw [hsplit]; simp, hfree, hv, hfits⟩
    rw [hrun]
    exact completes_ok _

private theorem mapLinear_completes_iff (perms : VMAPermission) (hm : s.process.vmManager.Sound) (hfcram : 0 < s.fcram) {offset : Nat}
    (hoffset : offset ≤ fcramN3dsSize) (ht : target < 2 ^ 32) (hz : size < 2 ^ 32) (halign : target % pageSize = 0)
    (hsize : size % pageSize = 0) : Completes (s.mapLinear target offset size perms) ↔ s.LinearFree target size := by
  unfold mapLinear getFCRAMRef assert
  rw [if_pos hoffset]
  constructor
  · rintro ⟨r, hr⟩
    obtain ⟨memory, -, hr⟩ := ok_of_bind hr
    obtain ⟨m', hmap, -⟩ := ok_of_bind hr
    exact VMManager.freeArea_of_mapBlock hm ht hz hmap
  · rintro ⟨hpos, hfree⟩
    obtain ⟨m', hmap, -⟩ := VMManager.mapBlock_returns (e := target + size) hm .continuous perms
      (show s.fcram + offset ≠ 0 by omega) halign hsize hpos le_rfl hfree
    simp only [bind, Except.bind, pure, Except.pure, hmap]
    exact completes_ok _

private theorem linearHeapArea_cases (s : ProcessMemory) :
    s.getLinearHeapAreaAddress = 0x14000000 ∨ s.getLinearHeapAreaAddress = 0x30000000 := by
  unfold getLinearHeapAreaAddress
  split
  · exact Or.inl rfl
  · exact Or.inr rfl

private theorem linearRange (h : s.WellFormed) (ht : target < 2 ^ 32) (hz : size < 2 ^ 32)
    (hout : ¬ s.OutsideLinearHeap target size) :
    s.getLinearHeapAreaAddress ≤ target ∧ target + size ≤ s.getLinearHeapAreaAddress + fcramN3dsSize := by
  have hlimit := h.limit
  have harea := linearHeapArea_cases s
  unfold OutsideLinearHeap getLinearHeapLimit getLinearHeapBase addU32 at hout
  unfold fcramN3dsSize at *
  omega

private theorem linearAllocate_find {r : MemoryRegionInfo} (hl : r.isLocked = false) {lower upper : Nat}
    (hfind : (r.freeBlocks.find? fun p => p.2 - p.1 ≥ size) = some (lower, upper)) :
    ∃ r', r.linearAllocate size = .ok (some lower, r') := by
  unfold MemoryRegionInfo.linearAllocate assert
  rw [if_pos hl, hfind]
  exact ⟨_, rfl⟩

private theorem linearAllocateAt_contains {r : MemoryRegionInfo} (hl : r.isLocked = false) {offset : Nat}
    (hwrap : offset + size < 2 ^ 32) :
    ∃ r', r.linearAllocateAt offset size = .ok (r.freeBlocks.contains offset (offset + size), r') := by
  unfold MemoryRegionInfo.linearAllocateAt assert
  rw [if_pos hl, addU32_of_lt hwrap]
  simp only [bind, Except.bind, pure, Except.pure]
  cases hc : r.freeBlocks.contains offset (offset + size)
  · exact ⟨_, rfl⟩
  · exact ⟨_, rfl⟩

theorem linearAllocate_returns_iff (h : s.WellFormed) (ht : target < 2 ^ 32) (hz : size < 2 ^ 32)
    (halign : target % pageSize = 0) (hsize : size % pageSize = 0) :
    Completes (s.linearAllocate target size perms) ↔ s.LinearAccepts target size := by
  have hm := h.reachable.sound
  have harea := linearHeapArea_cases s
  unfold linearAllocate LinearAccepts
  split
  · -- the first block that is large enough
    unfold firstBlock
    cases hfind : s.region.freeBlocks.find? fun p => p.2 - p.1 ≥ size with
    | none =>
      have hnone : s.region.linearAllocate size = .ok (none, s.region) := by
        unfold MemoryRegionInfo.linearAllocate assert
        rw [if_pos h.unlocked, hfind]
        rfl
      rw [hnone]
      exact iff_of_true (completes_ok _) fun p hp => by cases hp
    | some p =>
      obtain ⟨lower, upper⟩ := p
      obtain ⟨⟨hpage, hle⟩, -⟩ := h.pages _ (List.mem_of_find?_eq_some hfind)
      obtain ⟨region, hregion⟩ := linearAllocate_find h.unlocked hfind
      simp only at hpage hle
      have hlow : s.getLinearHeapAreaAddress + lower < 2 ^ 32 := by
        unfold fcramN3dsSize at hle
        omega
      have hadd : addU32 lower s.getLinearHeapAreaAddress = s.getLinearHeapAreaAddress + lower := by
        rw [addU32, Nat.add_comm]
        exact Nat.mod_eq_of_lt hlow
      have hpage' : (s.getLinearHeapAreaAddress + lower) % pageSize = 0 := by
        unfold pageSize at *
        omega
      rw [hregion, ok_bind]
      have hmap := mapLinear_completes_iff (s := { s with region := region }) perms hm h.fcram hle hlow hz
        hpage' hsize
      rw [← hadd] at hmap
      refine hmap.trans ⟨?_, ?_⟩
      · rintro hfree p hp
        cases hp
        rw [← hadd]
        exact hfree
      · intro hall
        rw [hadd]
        exact hall _ rfl
  · split
    · rename_i hout
      exact iff_of_true (completes_ok _) (Or.inl hout)
    · rename_i hout
      rw [or_iff_right hout]
      obtain ⟨hle, hle'⟩ := linearRange h ht hz hout
      have hsub : subU32 target s.getLinearHeapAreaAddress = target - s.getLinearHeapAreaAddress := subU32_of_le hle ht
      have hwrap : target - s.getLinearHeapAreaAddress + size < 2 ^ 32 := by
        unfold fcramN3dsSize at hle'
        omega
      obtain ⟨region, hregion⟩ := linearAllocateAt_contains h.unlocked hwrap
      simp only [hsub, hregion, ok_bind]
      cases hcontains : s.region.freeBlocks.contains (target - s.getLinearHeapAreaAddress)
          (target - s.getLinearHeapAreaAddress + size)
      · exact iff_of_true (completes_ok _) fun hp => by cases hp
      · have hmap := mapLinear_completes_iff (s := { s with region := region }) perms hm h.fcram
          (show target - s.getLinearHeapAreaAddress ≤ fcramN3dsSize by omega) ht hz halign hsize
        rw [forall_prop_of_true rfl]
        exact hmap

private theorem free_completes_iff {r : MemoryRegionInfo} (hl : r.isLocked = false) {offset : Nat}
    (hwrap : offset + size < 2 ^ 32) :
    Completes (r.free offset size) ↔ ∀ o ∈ between offset (offset + size), o ∉ r.freePoints := by
  unfold MemoryRegionInfo.free MemoryRegionInfo.freePoints
  rw [hl, if_neg (by decide), ← intersects_eq_false_iff]
  simp only [addU32_of_lt hwrap]
  cases hc : r.freeBlocks.intersects offset (offset + size)
  · exact iff_of_true (completes_ok _) rfl
  · exact iff_of_false not_completes_error nofun

def release (s : ProcessMemory) (region : MemoryRegionInfo) (offset size : Nat) : ProcessMemory :=
  { s with
    region := region
    process.holdingMemory := s.process.holdingMemory.subtract offset (addU32 offset size) }

private theorem freeBlocks_cons {memory offset : Nat} (blocks : List (Nat × Nat))
    (h : getFCRAMOffset s.fcram memory = .ok offset) :
    freeBlocks ((memory, size) :: blocks) s =
      (s.region.free offset size >>= fun region => freeBlocks blocks (s.release region offset size)) := by
  rw [freeBlocks, h]
  rfl

private theorem freeBlocks_vmManager {blocks : List (Nat × Nat)} (h : freeBlocks blocks s = .ok s') :
    s'.process.vmManager = s.process.vmManager := by
  induction blocks generalizing s with
  | nil =>
    cases h
    rfl
  | cons p blocks ih =>
    obtain ⟨memory, size⟩ := p
    obtain ⟨offset, hoffset, -⟩ := ok_of_bind h
    rw [freeBlocks_cons blocks hoffset] at h
    obtain ⟨region, -, h⟩ := ok_of_bind h
    have hrest := ih h
    exact hrest

private theorem behind_block {a memory : Nat} (hfcram : s.fcram ≤ memory)
    (hblock : ∀ i < size, s.backing (a + i) = some (memory + i)) :
    s.behind a (a + size) = between (memory - s.fcram) (memory - s.fcram + size) := by
  ext o
  simp only [mem_between, behind, Set.mem_ofPred_eq]
  constructor
  · rintro ⟨x, h1, h2, hx⟩
    have hmem := hblock (x - a) (by omega)
    rw [show a + (x - a) = x by omega, hx] at hmem
    have hmem := Option.some.inj hmem
    omega
  · rintro ⟨h1, h2⟩
    refine ⟨a + (o - (memory - s.fcram)), by omega, by omega, ?_⟩
    rw [hblock _ (by omega)]
    congr 1
    omega

private theorem mem_behind_split {a b e : Nat} (hab : a ≤ b) (hbe : b ≤ e) (o : Nat) :
    o ∈ s.behind a e ↔ o ∈ s.behind a b ∨ o ∈ s.behind b e := by
  constructor
  · rintro ⟨x, h1, h2, hx⟩
    by_cases hlt : x < b
    · exact Or.inl ⟨x, h1, hlt, hx⟩
    · exact Or.inr ⟨x, by omega, h2, hx⟩
  · rintro (⟨x, h1, h2, hx⟩ | ⟨x, h1, h2, hx⟩)
    · exact ⟨x, h1, by omega, hx⟩
    · exact ⟨x, by omega, h2, hx⟩

private theorem freeBlocks_completes_iff {blocks : List (Nat × Nat)} {a e : Nat} (hu : s.region.isLocked = false)
    (hlist : s.process.vmManager.Lists blocks a e) (hpos : ∀ p ∈ blocks, 0 < p.2)
    (hfcram : ∀ x p, a ≤ x → x < e → s.backing x = some p → s.fcram ≤ p ∧ p < s.fcram + fcramN3dsSize) :
    Completes (freeBlocks blocks s) ↔
      (∀ x y p, a ≤ x → x < e → a ≤ y → y < e → s.backing x = some p → s.backing y = some p → x = y) ∧
        ∀ o ∈ s.behind a e, o ∉ s.free := by
  induction blocks generalizing a s with
  | nil =>
    obtain rfl : a = e := hlist
    refine iff_of_true (completes_ok _) ⟨fun x y p h1 h2 => by omega, ?_⟩
    rintro o ⟨x, h1, h2, -⟩
    omega
  | cons b blocks ih =>
    obtain ⟨memory, size⟩ := b
    obtain ⟨hblock, hlist⟩ := hlist
    have hblock : ∀ i < size, s.backing (a + i) = some (memory + i) := hblock
    have hle := hlist.le
    have hsize : 0 < size := hpos _ List.mem_cons_self
    -- the first and the last byte of the block are in FCRAM
    have hfirst := hfcram a memory (by omega) (by omega) (hblock 0 hsize)
    have hlast := hfcram (a + (size - 1)) _ (by omega) (by omega) (hblock (size - 1) (by omega))
    have hn3ds : fcramN3dsSize < 2 ^ 31 := by decide
    have hwrap : memory - s.fcram + size < 2 ^ 32 := by omega
    have hoffset : getFCRAMOffset s.fcram memory = .ok (memory - s.fcram) := by
      unfold getFCRAMOffset assert
      rw [if_pos ⟨hfirst.1, hfirst.2.le⟩, ok_bind, Nat.mod_eq_of_lt (by omega)]
      rfl
    have hbehind := behind_block hfirst.1 hblock
    have hsplit := mem_behind_split (s := s) (show a ≤ a + size by omega) hle
    -- what the rest of the loop needs, once the block has been given back
    have hrest : ∀ region, region.isLocked = false → region.freePoints = s.free ∪ s.behind a (a + size) →
        (Completes (freeBlocks blocks (s.release region (memory - s.fcram) size)) ↔
          (∀ x y p, a + size ≤ x → x < e → a + size ≤ y → y < e → s.backing x = some p → s.backing y = some p →
            x = y) ∧ ∀ o ∈ s.behind (a + size) e, o ∉ s.free ∪ s.behind a (a + size)) := by
      intro region hlocked hpoints
      rw [← hpoints]
      exact ih (s := s.release region (memory - s.fcram) size) hlocked hlist
        (fun p hp => hpos p (List.mem_cons_of_mem _ hp)) fun x p h1 h2 => hfcram x p (by omega) h2
    have hspec : (∀ o ∈ s.behind a (a + size), o ∉ s.free) → ∃ region, s.region.free (memory - s.fcram) size = .ok region ∧
        region.isLocked = false ∧ region.freePoints = s.free ∪ s.behind a (a + size) := by
      intro halloc
      have hfree := @MemoryRegionInfo.free_spec s.region (memory - s.fcram) size hu
      rw [addU32_of_lt hwrap, ← hbehind] at hfree
      obtain ⟨region, hregion, hsame, hpoints⟩ := hfree halloc
      exact ⟨region, hregion, hsame.locked.trans hu, hpoints⟩
    rw [freeBlocks_cons blocks hoffset]
    constructor
    · rintro ⟨s', hs'⟩
      obtain ⟨region, hregion, hs'⟩ := ok_of_bind hs'
      have halloc := (free_completes_iff hu hwrap).mp ⟨region, hregion⟩
      rw [← hbehind] at halloc
      obtain ⟨region', hregion', hlocked, hpoints⟩ := hspec halloc
      obtain rfl : region = region' := by
        rw [hregion] at hregion'
        exact Except.ok.inj hregion'
      obtain ⟨hinj, hdisjoint⟩ := (hrest region hlocked hpoints).mp ⟨s', hs'⟩
      constructor
      · intro x y p h1 h2 h3 h4 hx hy
        have hbytes : ∀ x y, a ≤ x → x < a + size → a + size ≤ y → y < e → s.backing x = some p →
            s.backing y = some p → x = y := by
          intro x y h1 h2 h3 h4 hx hy
          obtain ⟨hp, -⟩ := hfcram y p (by omega) h4 hy
          have hp : p = s.fcram + (p - s.fcram) := by omega
          rw [hp] at hx hy
          exact absurd (Or.inr ⟨x, h1, h2, hx⟩) (hdisjoint _ ⟨y, h3, h4, hy⟩)
        by_cases hxlt : x < a + size
        · by_cases hylt : y < a + size
          · have hx' := hblock (x - a) (by omega)
            have hy' := hblock (y - a) (by omega)
            rw [show a + (x - a) = x by omega, hx] at hx'
            rw [show a + (y - a) = y by omega, hy] at hy'
            have hx' := Option.some.inj hx'
            have hy' := Option.some.inj hy'
            omega
          · exact hbytes x y h1 hxlt (by omega) h4 hx hy
        · by_cases hylt : y < a + size
          · exact (hbytes y x h3 hylt (by omega) h2 hy hx).symm
          · exact hinj x y p (by omega) h2 (by omega) h4 hx hy
      · intro o ho
        rcases (hsplit o).mp ho with ho | ho
        · exact halloc o ho
        · exact fun hfree => hdisjoint o ho (Or.inl hfree)
    · rintro ⟨hinj, hdisjoint⟩
      obtain ⟨region, hregion, hlocked, hpoints⟩ := hspec fun o ho => hdisjoint o ((hsplit o).mpr (Or.inl ho))
      rw [hregion, ok_bind]
      refine (hrest region hlocked hpoints).mpr ⟨?_, ?_⟩
      · exact fun x y p h1 h2 h3 h4 => hinj x y p (by omega) h2 (by omega) h4
      · rintro o ⟨x, h1, h2, hx⟩ (hfree | ⟨y, h3, h4, hy⟩)
        · exact hdisjoint o ((hsplit o).mpr (Or.inr ⟨x, h1, h2, hx⟩)) hfree
        · have heq := hinj x y _ (by omega) h2 h3 (by omega) hx hy
          omega

private theorem mapped_iff (hm : s.process.vmManager.Sound) (hfits : target + size ≤ VMManager.maxAddress) :
    s.Mapped target size ↔ s.process.vmManager.Mapped target (target + size) := by
  have htiled := hm.tiled
  unfold VMManager.Tiled at htiled
  have hiff : ∀ x, target ≤ x → x < target + size → (s.backing x ≠ none ↔
      ∀ a ∈ absAt s.process.vmManager.vmaMap x, a.type ≠ .free) := by
    intro x hx hx'
    obtain ⟨pre, v, post, hsplit, hv, hv'⟩ := htiled.find (Nat.zero_le x) (by omega)
    have habs : absAt s.process.vmManager.vmaMap x = some (v.attrAt x) := by
      rw [hsplit] at htiled ⊢
      exact absAt_split_mem htiled hv hv'
    rw [ne_eq, backing_of_free hm hsplit hv hv', habs]
    constructor
    · rintro hne a ha
      cases ha
      exact hne
    · exact fun hall => hall _ rfl
  constructor
  · exact fun h x hx hx' => (hiff x hx hx').mp (h x hx hx')
  · exact fun h x hx hx' => (hiff x hx hx').mpr (h x hx hx')

theorem heapFree_returns_iff (h : s.WellFormed) (ht : target < 2 ^ 32) (hz : size < 2 ^ 32)
    (halign : target % pageSize = 0) (hsize : size % pageSize = 0) :
    Completes (s.heapFree target size) ↔
      (s.Mapped target size → OutsideHeap target size ∨ s.Allocated target size) := by
  have hm := h.reachable.sound
  unfold heapFree
  by_cases hout : OutsideHeap target size
  · rw [if_pos hout]
    exact iff_of_true (completes_ok _) fun _ => Or.inl hout
  rw [if_neg hout, or_iff_right hout]
  by_cases hzero : size = 0
  · rw [if_pos hzero]
    refine iff_of_true (completes_ok _) fun _ => ⟨fun x y p h1 h2 => by omega, ?_⟩
    rintro o ⟨x, h1, h2, -⟩
    omega
  rw [if_neg hzero]
  have hpos : 0 < size := by omega
  obtain ⟨hheap, hheapEnd⟩ := heapRange ht hz hout
  have hfits : target + size ≤ VMManager.maxAddress := by
    unfold VMManager.maxAddress
    unfold heapVaddrEnd at hheapEnd
    omega
  have hmax : VMManager.maxAddress < 2 ^ 32 := by decide
  obtain ⟨res, hres, herr⟩ := VMManager.getBackingBlocksForRange_returns hm.tiled hpos hfits
  rw [hres]
  cases res with
  | error c =>
    refine iff_of_true (completes_ok _) fun hmapped => ?_
    exact absurd ((mapped_iff hm hfits).mp hmapped) (herr c rfl).2
  | ok blocks =>
    have hlists := VMManager.getBackingBlocksForRange_lists ⟨hm.tiled, hm.unlocked⟩ (by omega) hres
    have hblocks := VMManager.getBackingBlocksForRange_aligned hm halign hsize (by omega) hres
    have hmapped : s.Mapped target size := fun x hx hx' => hlists.mapped hx hx'
    have hloop := freeBlocks_completes_iff h.unlocked hlists (fun p hp => (hblocks p hp).2.2)
      fun x p h1 h2 => h.heap x p (by omega) (by omega)
    rw [forall_prop_of_true hmapped]
    refine Iff.trans ?_ hloop
    simp only [unwrap, ok_bind]
    constructor
    · rintro ⟨r, hr⟩
      obtain ⟨s₁, hs₁, -⟩ := ok_of_bind hr
      exact ⟨s₁, hs₁⟩
    · -- what is mapped can be unmapped
      rintro ⟨s₁, hs₁⟩
      have hop : VMManager.Op.InRange (.unmapRange target size) := ⟨hsize, halign, hpos, hfits⟩
      obtain ⟨⟨c, m⟩, hcall⟩ := Option.isSome_iff_exists.mp (VMManager.exec_isSome hm.tiled hm.unlocked hop)
      have hcall : s.process.vmManager.unmapRange target size = some (c, m) := hcall
      have hsucc := (VMManager.unmapRange_success_iff hm.tiled ⟨hsize, halign, hpos, hfits⟩ hcall).mpr
        ((mapped_iff hm hfits).mp hmapped)
      rw [hs₁, ok_bind]
      unfold unmapFreed assert
      rw [freeBlocks_vmManager hs₁, hcall]
      simp only [unwrap, ok_bind, if_pos hsucc]
      exact completes_ok _

theorem linearFree_returns_iff (h : s.WellFormed) (ht : target < 2 ^ 32) (hz : size < 2 ^ 32)
    (halign : target % pageSize = 0) (hsize : size % pageSize = 0) :
    Completes (s.linearFree target size) ↔
      (s.Mapped target size → s.OutsideLinearHeap target size ∨ s.LinearAllocated target size) := by
  have hm := h.reachable.sound
  unfold linearFree
  by_cases hout : s.OutsideLinearHeap target size
  · rw [if_pos hout]
    exact iff_of_true (completes_ok _) fun _ => Or.inl hout
  rw [if_neg hout, or_iff_right hout]
  by_cases hzero : size = 0
  · rw [if_pos hzero]
    exact iff_of_true (completes_ok _) fun _ x h1 h2 => by omega
  rw [if_neg hzero]
  have hpos : 0 < size := by omega
  obtain ⟨hle, hle'⟩ := linearRange h ht hz hout
  have harea := linearHeapArea_cases s
  have hfits : target + size ≤ VMManager.maxAddress := by
    unfold VMManager.maxAddress
    unfold fcramN3dsSize at hle'
    omega
  have hmax : VMManager.maxAddress < 2 ^ 32 := by decide
  have hop : VMManager.Op.InRange (.unmapRange target size) := ⟨hsize, halign, hpos, hfits⟩
  obtain ⟨⟨c, m⟩, hcall⟩ := Option.isSome_iff_exists.mp (VMManager.exec_isSome hm.tiled hm.unlocked hop)
  have hcall : s.process.vmManager.unmapRange target size = some (c, m) := hcall
  have hsucc := (VMManager.unmapRange_success_iff hm.tiled ⟨hsize, halign, hpos, hfits⟩ hcall).trans
    (mapped_iff hm hfits).symm
  rw [hcall]
  simp only [unwrap, ok_bind]
  by_cases hc : c = .success
  · rw [if_neg (not_not.mpr hc), forall_prop_of_true (hsucc.mp hc)]
    unfold freeLinear
    have hsub : subU32 target (s.setVMManager m).getLinearHeapAreaAddress = target - s.getLinearHeapAreaAddress :=
      subU32_of_le hle ht
    have hfree := free_completes_iff h.unlocked
      (show target - s.getLinearHeapAreaAddress + size < 2 ^ 32 by omega)
    have hpoints : (∀ o ∈ between (target - s.getLinearHeapAreaAddress) (target - s.getLinearHeapAreaAddress + size),
        o ∉ s.region.freePoints) ↔ s.LinearAllocated target size := by
      constructor
      · intro hall x h1 h2
        exact hall _ ⟨by omega, by omega⟩
      · rintro hall o ⟨h1, h2⟩
        have hx := hall (s.getLinearHeapAreaAddress + o) (by omega) (by omega)
        rwa [Nat.add_sub_cancel_left] at hx
    rw [← hpoints, ← hfree]
    simp only [hsub]
    constructor
    · rintro ⟨r, hr⟩
      obtain ⟨region, hregion, -⟩ := ok_of_bind hr
      exact ⟨region, hregion⟩
    · rintro ⟨region, hregion⟩
      have hregion : (s.setVMManager m).region.free (target - s.getLinearHeapAreaAddress) size = .ok region := hregion
      rw [hregion]
      exact completes_ok _
  · rw [if_pos hc]
    exact iff_of_true (completes_ok _) fun hmapped => absurd (hsucc.mpr hmapped) hc

theorem controlMemoryFree_returns_iff (h : s.WellFormed) (ht : target < 2 ^ 32) (hz : size < 2 ^ 32)
    (halign : target % pageSize = 0) (hsize : size % pageSize = 0) :
    Completes (s.controlMemoryFree target size) ↔ s.FreeAccepts target size := by
  unfold controlMemoryFree FreeAccepts
  by_cases hheap : heapVaddr ≤ target ∧ target < heapVaddrEnd
  · rw [if_pos hheap, if_pos hheap]
    exact heapFree_returns_iff h ht hz halign hsize
  rw [if_neg hheap, if_neg hheap]
  by_cases hlinear : s.getLinearHeapBase ≤ target ∧ target < s.getLinearHeapLimit
  · rw [if_pos hlinear]
    exact linearFree_returns_iff h ht hz halign hsize
  · rw [if_neg hlinear]
    refine iff_of_true (completes_ok _) fun _ => ?_
    by_cases hout : s.OutsideLinearHeap target size
    · exact Or.inl hout
    · -- the range can only be empty, at the end of the linear heap
      refine Or.inr fun x h1 h2 => ?_
      exfalso
      apply hlinear
      unfold OutsideLinearHeap addU32 at hout
      have hlimit : s.getLinearHeapLimit < 2 ^ 32 := addU32_lt _ _
      omega

private theorem aligned_of_mask {a : UInt32} (h : ¬ a &&& ControlMemoryArgs.citraPageMask ≠ 0) :
    a.toNat % pageSize = 0 := by
  have h := congrArg UInt32.toNat (not_not.mp h)
  rw [UInt32.toNat_and] at h
  have hmask : ControlMemoryArgs.citraPageMask.toNat = 2 ^ 12 - 1 := rfl
  rw [hmask, Nat.and_two_pow_sub_one_eq_mod] at h
  exact h

private theorem aligned_of_check {a : ControlMemoryArgs} (h : a.check = none) :
    a.addr0.toNat % pageSize = 0 ∧ a.addr1.toNat % pageSize = 0 ∧ a.size.toNat % pageSize = 0 := by
  unfold ControlMemoryArgs.check at h
  split at h
  · cases h
  split at h
  · cases h
  split at h
  · cases h
  rename_i h0 h1 hs
  exact ⟨aligned_of_mask h0, aligned_of_mask h1, aligned_of_mask hs⟩

private theorem completes_bind_iff {α β : Type} {x : Except Fault α} {f : α → β} :
    Completes (x >>= fun a => pure (f a)) ↔ Completes x := by
  constructor
  · rintro ⟨b, hb⟩
    obtain ⟨a, ha, -⟩ := ok_of_bind hb
    exact ⟨a, ha⟩
  · rintro ⟨a, ha⟩
    rw [ha]
    exact completes_ok _

/-- `svcControlMemory` returns exactly for the arguments that its operation accepts. -/
theorem controlMemory_returns_iff (s : ProcessMemory) (h : s.WellFormed) (a : ControlMemoryArgs) :
    Completes (s.controlMemory a) ↔
      (a.check = none → ∀ op ∈ a.decode, s.Accepts a.addr0.toNat a.addr1.toNat a.size.toNat op) := by
  unfold controlMemory
  cases hcheck : a.check with
  | some e => exact iff_of_true (completes_ok _) nofun
  | none =>
    rw [forall_prop_of_true rfl]
    obtain ⟨h0, h1, hs⟩ := aligned_of_check hcheck
    have ht : a.addr0.toNat < 2 ^ 32 := a.addr0.toNat_lt
    have hsrc : a.addr1.toNat < 2 ^ 32 := a.addr1.toNat_lt
    have hz : a.size.toNat < 2 ^ 32 := a.size.toNat_lt
    cases hdecode : a.decode with
    | none => exact iff_of_true (completes_ok _) nofun
    | some op =>
      simp only [Option.mem_def, Option.some.injEq, forall_eq']
      cases op with
      | free => exact completes_bind_iff.trans (controlMemoryFree_returns_iff h ht hz h0 hs)
      | commit linear =>
        cases linear with
        | true => exact completes_bind_iff.trans (linearAllocate_returns_iff h ht hz h0 hs)
        | false =>
          refine iff_of_true ?_ trivial
          exact completes_bind_iff.mpr (heapAllocate_returns h ht hz h0 hs _)
      | map => exact completes_bind_iff.trans (map_returns_iff h hsrc hz h0 h1 hs)
      | unmap => exact completes_bind_iff.trans (unmap_returns_iff h ht hsrc hz h0 h1 hs)
      | protect => exact completes_bind_iff.trans (reprotectRange_returns_iff h ht hz h0 hs)

/-- A process that has just been created, with 64 MiB of FCRAM for its region. -/
def fresh : ProcessMemory where
  fcram := 0x100000
  region := { base := 0, size := 0x4000000, used := 0, freeBlocks := [(0, 0x4000000)] }
  process := { kernelVersion := 0x22C, memoryRegion := .application }

private theorem fresh_wellFormed : fresh.WellFormed where
  fcram := by decide
  reachable := VMManager.Reachable.reset
  unlocked := rfl
  limit := by decide
  used := by decide
  normal := by
    refine ⟨List.pairwise_singleton _ _, ?_⟩
    intro p hp
    cases List.mem_singleton.mp hp
    decide
  pages := by
    intro p hp
    cases List.mem_singleton.mp hp
    exact ⟨⟨by decide, by decide⟩, by decide, by decide⟩
  heap := by
    intro x p _ _ hp
    have hnone : fresh.backing x = none := VMManager.backing_reset x
    rw [hnone] at hp
    cases hp

/-- `svcControlMemory(MEMOP_MAP)` of a page of the heap that has not been allocated. -/
def mapArgs : ControlMemoryArgs := ⟨0x10000000, 0x08000000, 0x1000, 4, 3⟩

theorem fresh_mapArgs_returns : fresh.WellFormed ∧ Completes (fresh.controlMemory mapArgs) := by
  refine ⟨fresh_wellFormed, (controlMemory_returns_iff fresh fresh_wellFormed mapArgs).mpr ?_⟩
  intro _ op hop
  have hdecode : mapArgs.decode = some .map := by decide
  rw [hdecode] at hop
  cases hop
  exact Or.inr (Or.inr ⟨by decide, Or.inl (by decide)⟩)

/-- `svcControlMemory(MEMOP_PROTECT)` of an empty range. -/
def protectArgs : ControlMemoryArgs := ⟨0x08000000, 0, 0, 6, 3⟩

theorem fresh_protectArgs_asserts : fresh.WellFormed ∧ protectArgs.check = none ∧
    fresh.controlMemory protectArgs = .error .assertion ∧ ¬ Completes (fresh.controlMemory protectArgs) := by
  have hcall : fresh.controlMemory protectArgs = .error .assertion := rfl
  refine ⟨fresh_wellFormed, by decide, hcall, ?_⟩
  rw [hcall]
  exact not_completes_error

end ProcessMemory

end SweepDSEmu
