import SweepDSEmu.Kernel.ControlMemory
import SweepDSEmu.Kernel.HandleTable
import SweepDSEmu.Kernel.ThreadResources

/-!
# Creating a thread

`KernelSystem::CreateThread` and `svcCreateThread` with all their errors.  A thread is put on the list of its core and
into the table of the wakeup callbacks before it gets its thread-local storage, which can fail.  The system call counts
the thread before the thread is created, and it gives the thread a handle last.

An index of a thread manager that does not exist ends the emulation.
-/

namespace SweepDSEmu

def threadProcessorIdDefault : Int := -2

def threadProcessorIdAll : Int := -1

def threadProcessorIdMax : Int := 4

structure ThreadCreation where
  threads : ThreadKernel
  numCores : Nat
  /-- `wakeup_callback_table` of a core. -/
  wakeupCallbackTable : Nat → ThreadId → Option ThreadId := fun _ _ => none
  /-- The host pointer to FCRAM. -/
  fcram : Nat
  /-- The memory region `BASE`. -/
  baseRegion : MemoryRegionInfo
  vmManager : Nat → VMManager := fun _ => VMManager.reset
  holdingTlsMemory : Nat → IntervalSet := fun _ => []
  memoryUsed : Nat → Nat := fun _ => 0
  /-- `IsValidVirtualAddress` for a process. -/
  isValidVirtualAddress : Nat → Nat → Bool
  /-- The category of a resource limit. -/
  category : Nat → ResourceLimitCategory := fun _ => .application
  /-- The limit value of `Priority` of a resource limit. -/
  priorityLimit : Nat → Int := fun _ => 0
  noThreadRestrictions : Nat → Bool := fun _ => false
  idealProcessor : Nat → Int := fun _ => 0
  handleTable : Nat → HandleTable ThreadId := fun _ => HandleTable.init
  currentProcess : Nat := 0

namespace ThreadCreation

open ThreadKernel

/-- The part of `CreateThread` before the thread-local storage. -/
def register (s : ThreadCreation) (t : ThreadId) (priority core process : Nat) : ThreadCreation :=
  { s with
    threads.scheduler := s.threads.scheduler.createThread t priority core process
      (s.category (s.threads.resourceLimit process)) false
    wakeupCallbackTable := Function.update s.wakeupCallbackTable core
      (Function.update (s.wakeupCallbackTable core) t (some t)) }

def allocateThreadLocalStorage (s : ThreadCreation) (process : Nat) :
    Except Fault (Except ResultCode Nat × ThreadCreation) :=
  let pages := s.threads.tlsSlots process
  match findSlot pages with
  | some (page, slot) =>
    .ok (.ok (tlsAddressOf page slot),
      { s with threads.tlsSlots := Function.update s.threads.tlsSlots process (setSlot pages page slot true) })
  | none => do
    let (offset, region) ← s.baseRegion.linearAllocate tlsPageSize
    match offset with
    | none => return (.error .outOfMemory, s)
    | some offset =>
      let memory ← getFCRAMRef s.fcram offset
      let tlsPageAddr := tlsAddressOf pages.length 0 % 2 ^ 32
      let (_, m) ← unwrap ((s.vmManager process).mapBackingMemory tlsPageAddr memory tlsPageSize .locked)
      return (.ok (tlsAddressOf pages.length 0), { s with
        baseRegion := region
        holdingTlsMemory := Function.update s.holdingTlsMemory process
          ((s.holdingTlsMemory process).add offset (addU32 offset tlsPageSize))
        memoryUsed := Function.update s.memoryUsed process (addU32 (s.memoryUsed process) tlsPageSize)
        vmManager := Function.update s.vmManager process m
        threads.tlsSlots := Function.update s.threads.tlsSlots process
          (setSlot (pages ++ [fun _ => false]) pages.length 0 true) })

def finish (s : ThreadCreation) (t : ThreadId) (address : Nat) (makeReady : Bool) : ThreadCreation :=
  { s with
    threads.tlsAddress := Function.update s.threads.tlsAddress t address
    threads.scheduler := if makeReady then s.threads.scheduler.makeReady t else s.threads.scheduler }

def createThread (s : ThreadCreation) (entryPoint priority : Nat) (processorId : Int) (process : Nat)
    (makeReady : Bool) : Except Fault (Except ResultCode ThreadId × ThreadCreation) :=
  if priority > threadPrioLowest then .ok (.error .outOfRange, s)
  else if processorId > threadProcessorIdMax then .ok (.error .outOfRangeKernel, s)
  else if s.isValidVirtualAddress process entryPoint = false then .ok (.error .invalidEntryPoint, s)
  else if processorId < 0 ∨ processorId ≥ s.numCores then .error .assertion
  else do
    let t := s.threads.scheduler.nextObjectId
    let s := s.register t priority processorId.toNat process
    match ← s.allocateThreadLocalStorage process with
    | (.error e, s) => return (.error e, s)
    | (.ok address, s) => return (.ok t, s.finish t address makeReady)

/-- `Reserve` for a thread.  It only warns when the limit is exceeded. -/
def reserveThread (s : ThreadCreation) (limit : Nat) : ThreadCreation :=
  { s with threads.threadCount := Function.update s.threads.threadCount limit (s.threads.threadCount limit + 1) }

/-- The processor of `svcCreateThread` after the default has been replaced. -/
def chooseProcessor (processorId : Int) : Option Int :=
  if processorId = threadProcessorIdAll then some 0
  else if 0 ≤ processorId ∧ processorId ≤ 3 then some processorId
  else none

def Authorized (s : ThreadCreation) (process priority : Nat) : Prop :=
  (s.priorityLimit (s.threads.resourceLimit process) % 2 ^ 32).toNat ≤ priority ∨ s.noThreadRestrictions process = true

instance (s : ThreadCreation) (process priority : Nat) : Decidable (s.Authorized process priority) :=
  inferInstanceAs (Decidable (_ ∨ _))

/-- The end of `svcCreateThread`, once the thread has been counted. -/
def createWithHandle (s : ThreadCreation) (entryPoint priority : Nat) (processorId : Int) (process : Nat) :
    Except Fault (Except ResultCode Handle × ThreadCreation) := do
  match ← s.createThread entryPoint priority processorId process true with
  | (.error e, s) => return (.error e, s)
  | (.ok t, s) =>
    match (s.handleTable process).create t with
    | .error e => return (.error e, s)
    | .ok (handle, table) =>
      return (.ok handle, { s with handleTable := Function.update s.handleTable process table })

def svcCreateThread (s : ThreadCreation) (entryPoint priority : Nat) (processorId : Int) :
    Except Fault (Except ResultCode Handle × ThreadCreation) :=
  let process := s.currentProcess
  if priority > threadPrioLowest then .ok (.error .outOfRange, s)
  else if ¬ s.Authorized process priority then .ok (.error .notAuthorized, s)
  else do
    assert (processorId = threadProcessorIdDefault → s.idealProcessor process ≠ threadProcessorIdDefault)
    let processorId := if processorId = threadProcessorIdDefault then s.idealProcessor process else processorId
    match chooseProcessor processorId with
    | none => return (.error .outOfRange, s)
    | some processorId =>
      (s.reserveThread (s.threads.resourceLimit process)).createWithHandle entryPoint priority processorId process

/-- Nothing of what the creation registers has changed. -/
structure NoTrace (s s' : ThreadCreation) : Prop where
  threadList : ∀ core, (s'.threads.scheduler.managers core).threadList = (s.threads.scheduler.managers core).threadList
  wakeupCallbackTable : s'.wakeupCallbackTable = s.wakeupCallbackTable
  readyQueue : ∀ core priority, (s'.threads.scheduler.managers core).readyQueue.data priority =
    (s.threads.scheduler.managers core).readyQueue.data priority
  tlsSlots : s'.threads.tlsSlots = s.threads.tlsSlots
  threadCount : s'.threads.threadCount = s.threads.threadCount

def LeavesNoTrace {α : Type} (s : ThreadCreation) (call : Except Fault (Except ResultCode α × ThreadCreation)) : Prop :=
  ∀ e s', call = .ok (.error e, s') → NoTrace s s'

/-- What holds between two calls: the address spaces are reachable, and the free blocks of `BASE` are in FCRAM. -/
structure WellFormed (s : ThreadCreation) : Prop where
  fcram : 0 < s.fcram
  unlocked : s.baseRegion.isLocked = false
  blocks : ∀ p ∈ s.baseRegion.freeBlocks, p.1 ≤ fcramN3dsSize
  reachable : ∀ process, (s.vmManager process).Reachable

/-- The process has a free slot, or `BASE` has memory for another page of them. -/
def TlsAvailable (s : ThreadCreation) (process : Nat) : Prop :=
  findSlot (s.threads.tlsSlots process) ≠ none ∨ ∃ p ∈ s.baseRegion.freeBlocks, tlsPageSize ≤ p.2 - p.1

def targetProcessor (s : ThreadCreation) (processorId : Int) : Option Int :=
  chooseProcessor (if processorId = threadProcessorIdDefault then s.idealProcessor s.currentProcess else processorId)

def HandleAvailable (s : ThreadCreation) (process : Nat) : Prop := (s.handleTable process).nextFreeSlot < HandleTable.maxCount

variable {s s' : ThreadCreation} {entryPoint priority process : Nat} {processorId : Int}

private theorem mapBackingMemory_page {m : VMManager} (hm : m.Reachable) {target memory : Nat}
    (halign : target % pageSize = 0) (hmem : memory ≠ 0) :
    ∃ r, m.mapBackingMemory target memory tlsPageSize .locked = some r := by
  have hsound := hm.sound
  by_cases hmax : VMManager.maxAddress ≤ target
  · unfold VMManager.mapBackingMemory VMManager.carveVMA
    rw [VMManager.findVMA_none m hmax]
    simp only [guard, if_pos hsound.unlocked, if_pos hmem, if_pos halign, Option.bind_eq_bind]
    exact ⟨_, rfl⟩
  · have hsmall : VMManager.maxAddress + tlsPageSize < 2 ^ 32 := by decide
    have hsize : tlsPageSize = 0x1000 := rfl
    rcases VMManager.mapBackingMemory_eq hsound.tiled hsound.unlocked .locked hmem halign
        (show tlsPageSize % pageSize = 0 from rfl) (by omega) with ⟨e, -, h⟩ | ⟨-, h⟩ | ⟨pre, w, post, -, -, h⟩
    · exact ⟨_, h⟩
    · omega
    · exact ⟨_, h⟩

private theorem allocateThreadLocalStorage_cases (h : s.WellFormed) (process : Nat) :
    (s.TlsAvailable process ∧ ∃ address s', s.allocateThreadLocalStorage process = .ok (.ok address, s') ∧
      s'.threads.threadCount = s.threads.threadCount ∧ s'.handleTable = s.handleTable) ∨
    (¬ s.TlsAvailable process ∧ s.allocateThreadLocalStorage process = .ok (.error .outOfMemory, s)) := by
  unfold allocateThreadLocalStorage TlsAvailable
  dsimp only
  cases hfind : findSlot (s.threads.tlsSlots process) with
  | some found =>
    obtain ⟨page, slot⟩ := found
    exact Or.inl ⟨Or.inl nofun, _, _, rfl, rfl, rfl⟩
  | none =>
    simp only [ne_eq, not_true_eq_false, false_or]
    cases hblock : s.baseRegion.freeBlocks.find? fun p => p.2 - p.1 ≥ tlsPageSize with
    | none =>
      right
      constructor
      · rintro ⟨p, hp, hlarge⟩
        have hno := List.find?_eq_none.mp hblock p hp
        simp only [ge_iff_le, decide_eq_true_eq] at hno
        omega
      · have hregion : s.baseRegion.linearAllocate tlsPageSize = .ok (none, s.baseRegion) := by
          unfold MemoryRegionInfo.linearAllocate assert
          rw [if_pos h.unlocked, hblock]
          rfl
        rw [hregion]
        rfl
    | some p =>
      obtain ⟨lower, upper⟩ := p
      left
      have hmem := List.mem_of_find?_eq_some hblock
      refine ⟨⟨(lower, upper), hmem, by simpa using List.find?_some hblock⟩, ?_⟩
      obtain ⟨region, hregion⟩ : ∃ region, s.baseRegion.linearAllocate tlsPageSize = .ok (some lower, region) := by
        unfold MemoryRegionInfo.linearAllocate assert
        rw [if_pos h.unlocked, hblock]
        exact ⟨_, rfl⟩
      have hlower : lower ≤ fcramN3dsSize := h.blocks _ hmem
      have hfcram := h.fcram
      have halign : tlsAddressOf (s.threads.tlsSlots process).length 0 % 2 ^ 32 % pageSize = 0 := by
        unfold tlsAddressOf tlsAreaVaddr tlsPageSize tlsEntrySize pageSize
        omega
      obtain ⟨⟨r, m⟩, hmap⟩ := mapBackingMemory_page (h.reachable process) halign (show s.fcram + lower ≠ 0 by omega)
      have href : getFCRAMRef s.fcram lower = .ok (s.fcram + lower) := by
        unfold getFCRAMRef assert
        rw [if_pos hlower]
        rfl
      rw [hregion]
      simp only [ok_bind, href, hmap, unwrap]
      exact ⟨_, _, rfl, rfl, rfl⟩

private theorem createThread_cases (h : s.WellFormed) (hprio : priority ≤ threadPrioLowest)
    (hproc : processorId ≤ threadProcessorIdMax) (hentry : s.isValidVirtualAddress process entryPoint = true)
    (hcore : 0 ≤ processorId ∧ processorId < s.numCores) (makeReady : Bool) :
    (s.TlsAvailable process ∧ ∃ t s', s.createThread entryPoint priority processorId process makeReady = .ok (.ok t, s') ∧
      s'.threads.threadCount = s.threads.threadCount ∧ s'.handleTable = s.handleTable) ∨
    (¬ s.TlsAvailable process ∧ s.createThread entryPoint priority processorId process makeReady =
      .ok (.error .outOfMemory,
        s.register s.threads.scheduler.nextObjectId priority processorId.toNat process)) := by
  have hentry' : ¬ s.isValidVirtualAddress process entryPoint = false := by
    rw [hentry]
    decide
  unfold createThread
  rw [if_neg (by omega), if_neg (by omega), if_neg hentry', if_neg (by omega)]
  have hreg : (s.register s.threads.scheduler.nextObjectId priority processorId.toNat process).WellFormed :=
    ⟨h.fcram, h.unlocked, h.blocks, h.reachable⟩
  rcases allocateThreadLocalStorage_cases hreg process with ⟨havail, address, s₁, hs₁, hcount, htable⟩ | ⟨havail, hs₁⟩
  · left
    refine ⟨havail, s.threads.scheduler.nextObjectId,
      s₁.finish s.threads.scheduler.nextObjectId address makeReady, ?_, hcount, htable⟩
    simp only [hs₁, ok_bind]
    rfl
  · right
    refine ⟨havail, ?_⟩
    simp only [hs₁, ok_bind]
    rfl

private theorem not_noTrace_register (s : ThreadCreation) (t : ThreadId) (priority core process : Nat) :
    ¬ NoTrace s (s.register t priority core process) := by
  intro h
  have hlist : ((s.register t priority core process).threads.scheduler.managers core).threadList =
      (s.threads.scheduler.managers core).threadList ++ [t] := by
    unfold register Scheduler.createThread Scheduler.modifyManager
    simp
  have hsame := h.threadList core
  rw [hlist] at hsame
  simp at hsame

theorem NoTrace.refl (s : ThreadCreation) : NoTrace s s := ⟨fun _ => rfl, rfl, fun _ _ => rfl, rfl, rfl⟩

/-- The arguments for which `KernelSystem::CreateThread` leaves no trace when it fails. -/
def CreatesCleanly (s : ThreadCreation) (entryPoint priority : Nat) (processorId : Int) (process : Nat) : Prop :=
  threadPrioLowest < priority ∨ threadProcessorIdMax < processorId ∨
    s.isValidVirtualAddress process entryPoint = false ∨ ¬ (0 ≤ processorId ∧ processorId < s.numCores) ∨
    s.TlsAvailable process

theorem createThread_leavesNoTrace (h : s.WellFormed) (makeReady : Bool) :
    LeavesNoTrace s (s.createThread entryPoint priority processorId process makeReady) ↔
      s.CreatesCleanly entryPoint priority processorId process := by
  unfold CreatesCleanly
  by_cases hprio : threadPrioLowest < priority
  · refine iff_of_true ?_ (Or.inl hprio)
    intro e s' hs'
    unfold createThread at hs'
    rw [if_pos hprio] at hs'
    cases hs'
    exact NoTrace.refl s
  by_cases hproc : threadProcessorIdMax < processorId
  · refine iff_of_true ?_ (Or.inr (Or.inl hproc))
    intro e s' hs'
    unfold createThread at hs'
    rw [if_neg hprio, if_pos hproc] at hs'
    cases hs'
    exact NoTrace.refl s
  by_cases hentry : s.isValidVirtualAddress process entryPoint = false
  · refine iff_of_true ?_ (Or.inr (Or.inr (Or.inl hentry)))
    intro e s' hs'
    unfold createThread at hs'
    rw [if_neg hprio, if_neg hproc, if_pos hentry] at hs'
    cases hs'
    exact NoTrace.refl s
  by_cases hcore : 0 ≤ processorId ∧ processorId < s.numCores
  swap
  · refine iff_of_true ?_ (Or.inr (Or.inr (Or.inr (Or.inl hcore))))
    intro e s' hs'
    unfold createThread at hs'
    rw [if_neg hprio, if_neg hproc, if_neg hentry, if_pos (by omega)] at hs'
    cases hs'
  rw [or_iff_right hprio, or_iff_right hproc, or_iff_right hentry, or_iff_right (not_not.mpr hcore)]
  rcases createThread_cases h (Nat.not_lt.mp hprio) (Int.not_lt.mp hproc) (Bool.not_eq_false _ ▸ hentry) hcore
      makeReady with
    ⟨havail, t, s₁, hs₁, -, -⟩ | ⟨havail, hs₁⟩
  · refine iff_of_true ?_ havail
    intro e s' hs'
    rw [hs₁] at hs'
    cases hs'
  · refine iff_of_false ?_ havail
    intro hno
    exact not_noTrace_register s _ _ _ _ (hno _ _ hs₁)

/-- The arguments for which `svcCreateThread` leaves no trace when it fails: it fails before the thread is counted, or
it does not fail. -/
def SvcCreatesCleanly (s : ThreadCreation) (entryPoint priority : Nat) (processorId : Int) : Prop :=
  threadPrioLowest < priority ∨ ¬ s.Authorized s.currentProcess priority ∨
    ∀ p ∈ s.targetProcessor processorId, s.isValidVirtualAddress s.currentProcess entryPoint = true ∧
      (p < s.numCores → s.TlsAvailable s.currentProcess ∧ s.HandleAvailable s.currentProcess)

private theorem not_noTrace_of_count {limit : Nat}
    (h : s'.threads.threadCount = (s.reserveThread limit).threads.threadCount) : ¬ NoTrace s s' := by
  intro hno
  have hcount := congrFun (h.symm.trans hno.threadCount) limit
  have hone : (s.reserveThread limit).threads.threadCount limit = s.threads.threadCount limit + 1 :=
    Function.update_self limit _ _
  omega

private theorem createWithHandle_leavesNoTrace (h : s.WellFormed) (limit : Nat) (hprio : priority ≤ threadPrioLowest)
    (hproc : 0 ≤ processorId ∧ processorId ≤ 3) :
    LeavesNoTrace s ((s.reserveThread limit).createWithHandle entryPoint priority processorId process) ↔
      s.isValidVirtualAddress process entryPoint = true ∧
        (processorId < s.numCores → s.TlsAvailable process ∧ s.HandleAvailable process) := by
  have hmax : threadProcessorIdMax = 4 := rfl
  have hres : (s.reserveThread limit).WellFormed := ⟨h.fcram, h.unlocked, h.blocks, h.reachable⟩
  by_cases hentry : s.isValidVirtualAddress process entryPoint = true
  swap
  · -- the entry point is checked too late
    refine iff_of_false ?_ fun hclean => hentry hclean.1
    have hinvalid : (s.reserveThread limit).isValidVirtualAddress process entryPoint = false :=
      Bool.not_eq_true _ ▸ hentry
    have hcall : (s.reserveThread limit).createThread entryPoint priority processorId process true =
        .ok (.error .invalidEntryPoint, s.reserveThread limit) := by
      unfold createThread
      rw [if_neg (by omega), if_neg (by omega), if_pos hinvalid]
    intro hno
    refine not_noTrace_of_count rfl (hno .invalidEntryPoint (s.reserveThread limit) ?_)
    unfold createWithHandle
    rw [hcall]
    rfl
  rw [and_iff_right hentry]
  by_cases hcore : processorId < s.numCores
  swap
  · -- there is no such core
    refine iff_of_true ?_ fun hlt => absurd hlt hcore
    intro e s' hs'
    have hvalid : ¬ (s.reserveThread limit).isValidVirtualAddress process entryPoint = false := by
      show ¬ s.isValidVirtualAddress process entryPoint = false
      rw [hentry]
      decide
    have hcall : (s.reserveThread limit).createThread entryPoint priority processorId process true =
        .error .assertion := by
      have hcore : processorId ≥ (s.reserveThread limit).numCores := Int.not_lt.mp hcore
      unfold createThread
      rw [if_neg (by omega), if_neg (by omega), if_neg hvalid, if_pos (Or.inr hcore)]
    unfold createWithHandle at hs'
    rw [hcall] at hs'
    cases hs'
  rw [forall_prop_of_true hcore]
  rcases createThread_cases hres hprio (by omega) hentry ⟨hproc.1, hcore⟩ true with
    ⟨havail, t, s₁, hs₁, hcount, htable⟩ | ⟨havail, hs₁⟩
  · have havail : s.TlsAvailable process := havail
    rw [and_iff_right havail]
    have htable : (s₁.handleTable process).nextFreeSlot = (s.handleTable process).nextFreeSlot := by
      rw [htable]
      rfl
    by_cases hslot : (s.handleTable process).nextFreeSlot < HandleTable.maxCount
    · refine iff_of_true ?_ hslot
      intro e s' hs'
      unfold createWithHandle HandleTable.create at hs'
      simp only [hs₁, ok_bind, htable, if_pos hslot] at hs'
      cases hs'
    · -- the thread stays without a handle
      refine iff_of_false ?_ hslot
      intro hno
      refine not_noTrace_of_count hcount (hno .outOfHandles s₁ ?_)
      unfold createWithHandle HandleTable.create
      simp only [hs₁, ok_bind, htable, if_neg hslot]
      rfl
  · refine iff_of_false ?_ fun hclean => havail hclean.1
    intro hno
    obtain ⟨s₂, hs₂⟩ : ∃ s₂, s₂ = (s.reserveThread limit).register s.threads.scheduler.nextObjectId priority
      processorId.toNat process := ⟨_, rfl⟩
    have hcount : s₂.threads.threadCount = (s.reserveThread limit).threads.threadCount := by
      rw [hs₂]
      rfl
    refine not_noTrace_of_count hcount (hno .outOfMemory s₂ ?_)
    unfold createWithHandle
    rw [hs₁, hs₂]
    rfl

private theorem chooseProcessor_range {p : Int} (h : chooseProcessor processorId = some p) : 0 ≤ p ∧ p ≤ 3 := by
  unfold chooseProcessor at h
  split at h
  · cases h
    decide
  · split at h
    · cases h
      assumption
    · cases h

theorem svcCreateThread_leavesNoTrace (h : s.WellFormed) :
    LeavesNoTrace s (s.svcCreateThread entryPoint priority processorId) ↔
      s.SvcCreatesCleanly entryPoint priority processorId := by
  unfold SvcCreatesCleanly svcCreateThread
  by_cases hprio : threadPrioLowest < priority
  · refine iff_of_true ?_ (Or.inl hprio)
    intro e s' hs'
    rw [if_pos hprio] at hs'
    cases hs'
    exact NoTrace.refl s
  rw [if_neg hprio, or_iff_right hprio]
  by_cases hauth : s.Authorized s.currentProcess priority
  swap
  · refine iff_of_true ?_ (Or.inl hauth)
    intro e s' hs'
    rw [if_pos hauth] at hs'
    cases hs'
    exact NoTrace.refl s
  rw [if_neg (not_not.mpr hauth), or_iff_right (not_not.mpr hauth)]
  unfold assert targetProcessor
  by_cases hdefault : processorId = threadProcessorIdDefault →
      s.idealProcessor s.currentProcess ≠ threadProcessorIdDefault
  · rw [if_pos hdefault, ok_bind]
    dsimp only
    cases hchoose : chooseProcessor
        (if processorId = threadProcessorIdDefault then s.idealProcessor s.currentProcess else processorId) with
    | none =>
      refine iff_of_true ?_ fun p hp => nomatch hp
      intro e s' hs'
      cases hs'
      exact NoTrace.refl s
    | some p =>
      have hp := chooseProcessor_range hchoose
      refine (createWithHandle_leavesNoTrace h _ (Nat.not_lt.mp hprio) hp).trans ?_
      constructor
      · rintro hclean q hq
        cases hq
        exact hclean
      · exact fun hclean => hclean p rfl
  · -- the default processor of the process is the default again
    rw [if_neg hdefault]
    rw [Classical.not_imp, not_not] at hdefault
    obtain ⟨hproc, hideal⟩ := hdefault
    refine iff_of_true nofun ?_
    rw [if_pos hproc, hideal]
    exact fun p hp => nomatch hp

/-- A failing creation leaves no trace, exactly when it fails early enough or does not fail. -/
theorem threadCreation_leavesNoTrace_iff (s : ThreadCreation) (h : s.WellFormed) (entryPoint priority : Nat)
    (processorId : Int) (process : Nat) (makeReady : Bool) :
    (LeavesNoTrace s (s.createThread entryPoint priority processorId process makeReady) ↔
      s.CreatesCleanly entryPoint priority processorId process) ∧
    (LeavesNoTrace s (s.svcCreateThread entryPoint priority processorId) ↔
      s.SvcCreatesCleanly entryPoint priority processorId) :=
  ⟨createThread_leavesNoTrace h makeReady, svcCreateThread_leavesNoTrace h⟩

/-- A kernel with two cores, whose region `BASE` has the given free blocks. -/
def sampleKernel (freeBlocks : IntervalSet) : ThreadCreation where
  threads := { resourceLimit := fun _ => 0 }
  numCores := 2
  fcram := 0x100000
  baseRegion := { base := 0, size := 0x1400000, used := 0, freeBlocks := freeBlocks }
  isValidVirtualAddress := fun _ address => address == 0x100000

private theorem sampleKernel_wellFormed {freeBlocks : IntervalSet} (h : ∀ p ∈ freeBlocks, p.1 ≤ fcramN3dsSize) :
    (sampleKernel freeBlocks).WellFormed := ⟨show 0 < 0x100000 by decide, rfl, h, fun _ => VMManager.Reachable.reset⟩

/-- With memory for the thread-local storage both calls leave no trace. -/
theorem sampleKernel_leavesNoTrace :
    LeavesNoTrace (sampleKernel [(0, 0x1000)]) ((sampleKernel [(0, 0x1000)]).createThread 0x100000 48 0 0 true) ∧
      LeavesNoTrace (sampleKernel [(0, 0x1000)]) ((sampleKernel [(0, 0x1000)]).svcCreateThread 0x100000 48 0) := by
  have hwf : (sampleKernel [(0, 0x1000)]).WellFormed := by
    apply sampleKernel_wellFormed
    decide
  have hiff := threadCreation_leavesNoTrace_iff _ hwf 0x100000 48 0 0 true
  have hblock : (sampleKernel [(0, 0x1000)]).TlsAvailable 0 := Or.inr ⟨(0, 0x1000), List.mem_singleton.mpr rfl, by decide⟩
  refine ⟨hiff.1.mpr ?_, hiff.2.mpr ?_⟩
  · exact Or.inr (Or.inr (Or.inr (Or.inr hblock)))
  · refine Or.inr (Or.inr fun p _ => ⟨rfl, fun _ => ⟨hblock, ?_⟩⟩)
    unfold HandleAvailable sampleKernel HandleTable.init HandleTable.clear HandleTable.maxCount
    decide

/-- Without memory for the thread-local storage the thread stays on the list of its core, and the system call leaves it
counted.  For an entry point that is not mapped the system call leaves a thread counted that does not exist. -/
theorem sampleKernel_leaves_traces :
    (sampleKernel []).WellFormed ∧
    (∃ s', (sampleKernel []).createThread 0x100000 48 0 0 true = .ok (.error .outOfMemory, s') ∧
      (s'.threads.scheduler.managers 0).threadList = [0] ∧ ¬ NoTrace (sampleKernel []) s') ∧
    (∃ s', (sampleKernel []).svcCreateThread 0 48 0 = .ok (.error .invalidEntryPoint, s') ∧
      s'.threads.threadCount 0 = 1 ∧ ¬ NoTrace (sampleKernel []) s') := by
  refine ⟨sampleKernel_wellFormed nofun, ⟨_, rfl, rfl, ?_⟩, _, rfl, rfl, ?_⟩
  · exact not_noTrace_register _ _ _ _ _
  · exact not_noTrace_of_count rfl

end ThreadCreation

end SweepDSEmu
