import SweepDSEmu.Kernel.ProcessOwnership

/-!
# Ownership of FCRAM

The processes of a console share three memory regions.  In every run whose `MEMOP_FREE` calls are safe to release, no
FCRAM offset is at once free and mapped, none is held by two processes, and `MemoryRegionInfo::Free` never meets free
blocks.

A run starts after `MemoryInit`.  Processes are created, their segments are loaded, and they call `svcControlMemory` in
any order.
-/

namespace SweepDSEmu

inductive MemoryMode where
  | prod
  | dev1
  | dev2
  | dev3
  | dev4
  | newProd
  | newDev1
  deriving DecidableEq

def memoryRegionSizes : MemoryMode → Nat × Nat × Nat
  | .prod => (0x04000000, 0x02C00000, 0x01400000)
  | .dev1 => (0x06000000, 0x00C00000, 0x01400000)
  | .dev2 => (0x05000000, 0x01C00000, 0x01400000)
  | .dev3 => (0x04800000, 0x02400000, 0x01400000)
  | .dev4 => (0x02000000, 0x04C00000, 0x01400000)
  | .newProd => (0x07C00000, 0x06400000, 0x02000000)
  | .newDev1 => (0x0B200000, 0x02E00000, 0x02000000)

def fcramSize : Nat := 0x08000000

structure KernelMemory where
  fcram : Nat
  regions : MemoryRegion → MemoryRegionInfo
  processes : Nat → Option Process

namespace KernelMemory

def memoryInit (fcram : Nat) (isNew3ds : Bool) (memoryMode : MemoryMode) : Except Fault KernelMemory := do
  let (application, system, base) := memoryRegionSizes memoryMode
  assert (application + system + base = if isNew3ds then fcramN3dsSize else fcramSize)
  return {
    fcram := fcram
    regions := fun
      | .application => .reset 0 application
      | .system => .reset application system
      | .base => .reset (application + system) base
    processes := fun _ => none }

def view (k : KernelMemory) (p : Process) : ProcessMemory := ⟨k.fcram, k.regions p.memoryRegion, p⟩

def store (k : KernelMemory) (pid : Nat) (s : ProcessMemory) : KernelMemory :=
  { k with
    regions := Function.update k.regions s.process.memoryRegion s.region
    processes := Function.update k.processes pid (some s.process) }

inductive Op where
  | createProcess (pid kernelVersion : Nat) (memoryRegion : MemoryRegion)
  /-- The `MapSegment` of `Process::Run`. -/
  | mapSegment (pid : Nat) (addr size : UInt32) (permissions : VMAPermission) (memoryState : MemoryState)
  | controlMemory (pid : Nat) (args : ControlMemoryArgs)

def call {α : Type} (k : KernelMemory) (pid : Nat) (f : ProcessMemory → Except Fault (α × ProcessMemory)) :
    Except Fault KernelMemory :=
  match k.processes pid with
  | none => .ok k
  | some p => do
    let (_, s) ← f (k.view p)
    return k.store pid s

/-- A new process; nothing happens when the identifier is taken. -/
def createProcess (k : KernelMemory) (pid kernelVersion : Nat) (memoryRegion : MemoryRegion) : KernelMemory :=
  match k.processes pid with
  | some _ => k
  | none =>
    let p : Process := { kernelVersion := kernelVersion, memoryRegion := memoryRegion }
    { k with processes := Function.update k.processes pid (some p) }

def exec (k : KernelMemory) : Op → Except Fault KernelMemory
  | .createProcess pid kernelVersion memoryRegion => .ok (k.createProcess pid kernelVersion memoryRegion)
  | .mapSegment pid addr size permissions memoryState =>
    k.call pid fun s => s.heapAllocate addr.toNat size.toNat permissions memoryState true
  | .controlMemory pid args =>
    k.call pid fun s => do
      let (result, address, s) ← s.controlMemory args
      return ((result, address), s)

def run (k : KernelMemory) : List Op → Except Fault KernelMemory
  | [] => .ok k
  | op :: ops => k.exec op >>= fun k => k.run ops

def Op.Safe (k : KernelMemory) : Op → Prop
  | .controlMemory pid args => ∀ p, k.processes pid = some p → args.check = none → args.decode = some .free →
      (k.view p).ReleaseSafe args.addr0.toNat args.size.toNat
  | _ => True

def SafeRun (k : KernelMemory) : List Op → Prop
  | [] => True
  | op :: ops => op.Safe k ∧ ∀ k', k.exec op = .ok k' → SafeRun k' ops

structure OwnershipOk (k : KernelMemory) : Prop where
  free_or_mapped : ∀ r pid p x o, k.processes pid = some p → p.vmManager.backing x = some (k.fcram + o) →
    o ∉ (k.regions r).freePoints
  held_once : ∀ pid pid' p p' o, pid ≠ pid' → k.processes pid = some p → k.processes pid' = some p' →
    o ∈ p.holdingMemory.points → o ∉ p'.holdingMemory.points

structure Inv (k : KernelMemory) : Prop where
  owned : ∀ pid p, k.processes pid = some p → (k.view p).Owned
  unlocked : ∀ r, (k.regions r).isLocked = false
  base : ∀ r, (k.regions r).base ≤ fcramN3dsSize
  held : ∀ pid pid' p p', pid ≠ pid' → k.processes pid = some p → k.processes pid' = some p' →
    Disjoint p.holdingMemory.points p'.holdingMemory.points
  apart : ∀ r pid p, k.processes pid = some p → Disjoint p.holdingMemory.points (k.regions r).freePoints
  free : ∀ r r', r ≠ r' → Disjoint (k.regions r).freePoints (k.regions r').freePoints

theorem Inv.ownershipOk {k : KernelMemory} (h : Inv k) : OwnershipOk k where
  free_or_mapped r pid p x o hp hx := by
    obtain ⟨o', ho', heq⟩ := (h.owned pid p hp).mapped x _ hx
    have heq : k.fcram + o = k.fcram + o' := heq
    obtain rfl : o = o' := by omega
    exact Set.disjoint_left.mp (h.apart r pid p hp) ho'
  held_once pid pid' p p' o hne hp hp' ho := Set.disjoint_left.mp (h.held pid pid' p p' hne hp hp') ho

private theorem reset_freePoints (base size : Nat) (h : base + size < 2 ^ 32) :
    (MemoryRegionInfo.reset base size).freePoints = IntervalSet.between base (base + size) := by
  unfold MemoryRegionInfo.reset MemoryRegionInfo.freePoints
  simp only
  rw [IntervalSet.points_add, IntervalSet.points_nil, Set.empty_union, addU32_of_lt h]

private theorem memoryInit_inv {fcram : Nat} {isNew3ds : Bool} {mode : MemoryMode} {k : KernelMemory}
    (h : memoryInit fcram isNew3ds mode = .ok k) : Inv k := by
  unfold memoryInit assert at h
  generalize memoryRegionSizes mode = sizes at h
  obtain ⟨a, b, c⟩ := sizes
  simp only at h
  by_cases hsum : a + b + c = if isNew3ds then fcramN3dsSize else fcramSize
  · rw [if_pos hsum] at h
    cases h
    have hsize : a + b + c ≤ 0x10000000 := by
      unfold fcramN3dsSize fcramSize at hsum
      split at hsum <;> omega
    have ha := reset_freePoints 0 a (by omega)
    have hb := reset_freePoints a b (by omega)
    have hc := reset_freePoints (a + b) c (by omega)
    refine ⟨(fun _ _ hp => nomatch hp), fun r => ?_, fun r => ?_, (fun _ _ _ _ _ hp => nomatch hp),
      (fun _ _ _ hp => nomatch hp), fun r r' hne => ?_⟩
    · cases r <;> rfl
    · unfold fcramN3dsSize
      cases r <;> simp only [MemoryRegionInfo.reset] <;> omega
    · rw [Set.disjoint_left]
      intro o ho ho'
      cases r <;> cases r' <;> first
        | exact hne rfl
        | simp only [ha, hb, hc, IntervalSet.mem_between] at ho ho'
          omega
  · rw [if_neg hsum] at h
    cases h

variable {k k' : KernelMemory}

private theorem Inv.store (h : Inv k) {pid : Nat} {p : Process} (hp : k.processes pid = some p) {s : ProcessMemory}
    (hs : ProcessMemory.Transfer (k.view p) s) : Inv (k.store pid s) := by
  have hreg : s.process.memoryRegion = p.memoryRegion := hs.memoryRegion
  have hfc : s.fcram = k.fcram := hs.fcram
  -- an offset of the new owner comes from the process or from its region
  have hfrom : ∀ o, o ∈ s.held ∨ o ∈ s.free → o ∈ p.holdingMemory.points ∨ o ∈ (k.regions p.memoryRegion).freePoints :=
    hs.conserved
  have hregion : ∀ r, (k.store pid s).regions r = if r = p.memoryRegion then s.region else k.regions r := by
    intro r
    unfold KernelMemory.store
    rw [hreg]
    exact Function.update_apply _ _ _ _
  have hproc : ∀ q, (k.store pid s).processes q = if q = pid then some s.process else k.processes q := by
    intro q
    exact Function.update_apply _ _ _ _
  -- another process neither holds nor maps what belongs to the new owner
  have hother : ∀ q p', q ≠ pid → k.processes q = some p' →
      ∀ o, o ∈ s.held ∨ o ∈ s.free → o ∉ p'.holdingMemory.points := by
    intro q p' hq hp' o ho ho'
    rcases hfrom o ho with ho | ho
    · exact Set.disjoint_left.mp (h.held pid q p p' (Ne.symm hq) hp hp') ho ho'
    · exact Set.disjoint_left.mp (h.apart _ q p' hp') ho' ho
  have hregions : ∀ r, r ≠ p.memoryRegion → ∀ o, o ∈ s.held ∨ o ∈ s.free → o ∉ (k.regions r).freePoints := by
    intro r hr o ho ho'
    rcases hfrom o ho with ho | ho
    · exact Set.disjoint_left.mp (h.apart r pid p hp) ho ho'
    · exact Set.disjoint_left.mp (h.free _ _ (Ne.symm hr)) ho ho'
  refine ⟨?_, ?_, ?_, ?_, ?_, ?_⟩
  · intro q p' hp'
    rw [hproc] at hp'
    split at hp'
    · cases hp'
      have hview : (k.store pid s).view s.process = s := by
        unfold view
        rw [hregion, if_pos hreg]
        cases s
        cases hfc
        rfl
      rw [hview]
      exact hs.owned
    · rename_i hq
      have hold := h.owned q p' hp'
      have hreg' := hregion p'.memoryRegion
      refine ⟨hold.intact, ?_, hold.mapped, ?_⟩
      · show ((k.store pid s).regions p'.memoryRegion).isLocked = false
        rw [hreg']
        split
        · exact hs.owned.unlocked
        · exact hold.unlocked
      · intro o ho ho'
        have ho' : o ∈ ((k.store pid s).regions p'.memoryRegion).freePoints := ho'
        rw [hreg'] at ho'
        split at ho'
        · exact hother q p' hq hp' o (Or.inr ho') ho
        · exact hold.apart o ho ho'
  · intro r
    rw [hregion]
    split
    · exact hs.owned.unlocked
    · exact h.unlocked r
  · intro r
    rw [hregion]
    split
    · rw [hs.region.base]
      exact h.base _
    · exact h.base r
  · intro q q' p₁ p₂ hne h1 h2
    rw [hproc] at h1 h2
    rw [Set.disjoint_left]
    intro o ho ho'
    by_cases hq : q = pid
    · have hq' : q' ≠ pid := fun hq' => hne (hq.trans hq'.symm)
      rw [if_pos hq] at h1
      rw [if_neg hq'] at h2
      cases h1
      exact hother q' p₂ hq' h2 o (Or.inl ho) ho'
    · rw [if_neg hq] at h1
      by_cases hq' : q' = pid
      · rw [if_pos hq'] at h2
        cases h2
        exact hother q p₁ hq h1 o (Or.inl ho') ho
      · rw [if_neg hq'] at h2
        exact Set.disjoint_left.mp (h.held q q' p₁ p₂ hne h1 h2) ho ho'
  · intro r q p' hp'
    rw [hproc] at hp'
    rw [hregion, Set.disjoint_left]
    intro o ho ho'
    by_cases hq : q = pid
    · rw [if_pos hq] at hp'
      cases hp'
      split at ho'
      · exact hs.owned.apart o ho ho'
      · rename_i hr
        exact hregions r hr o (Or.inl ho) ho'
    · rw [if_neg hq] at hp'
      split at ho'
      · exact hother q p' hq hp' o (Or.inr ho') ho
      · exact Set.disjoint_left.mp (h.apart r q p' hp') ho ho'
  · intro r r' hne
    rw [hregion, hregion, Set.disjoint_left]
    intro o ho ho'
    by_cases hr : r = p.memoryRegion
    · have hr' : r' ≠ p.memoryRegion := fun hr' => hne (hr.trans hr'.symm)
      rw [if_pos hr] at ho
      rw [if_neg hr'] at ho'
      exact hregions r' hr' o (Or.inr ho) ho'
    · rw [if_neg hr] at ho
      split at ho'
      · exact hregions r hr o (Or.inr ho') ho
      · exact Set.disjoint_left.mp (h.free r r' hne) ho ho'

private theorem Inv.call {α : Type} (h : Inv k) {pid : Nat}
    {f : ProcessMemory → Except Fault (α × ProcessMemory)}
    (hf : ∀ p, k.processes pid = some p →
      Outcome OtherFault (fun r => ProcessMemory.Transfer (k.view p) r.2) (f (k.view p))) :
    Outcome OtherFault Inv (k.call pid f) := by
  unfold KernelMemory.call
  split
  · exact h
  · rename_i p hp
    exact (hf p hp).bind fun r hr => h.store hp hr

private theorem Inv.create (h : Inv k) (pid kernelVersion : Nat) (memoryRegion : MemoryRegion) :
    Inv (k.createProcess pid kernelVersion memoryRegion) := by
  unfold createProcess
  split
  · exact h
  · have hproc : ∀ (p : Process) q, Function.update k.processes pid (some p) q =
        if q = pid then some p else k.processes q := fun p q => Function.update_apply _ _ _ _
    refine ⟨?_, h.unlocked, h.base, ?_, ?_, h.free⟩
    · intro q p hp
      simp only [hproc] at hp
      split at hp
      · cases hp
        refine ⟨VMManager.intact_reset, h.unlocked _, ?_, fun o ho => absurd ho (by simp [ProcessMemory.held, view])⟩
        intro x p hp
        have hp : VMManager.reset.backing x = some p := hp
        rw [VMManager.backing_reset] at hp
        cases hp
      · exact h.owned q p hp
    · intro q q' p p' hne h1 h2
      simp only [hproc] at h1 h2
      split at h1
      · cases h1
        simp
      · split at h2
        · cases h2
          simp
        · exact h.held q q' p p' hne h1 h2
    · intro r q p hp
      simp only [hproc] at hp
      split at hp
      · cases hp
        simp
      · exact h.apart r q p hp

theorem exec_inv (h : Inv k) {op : Op} (hsafe : op.Safe k) : Outcome OtherFault Inv (k.exec op) := by
  cases op with
  | createProcess pid kernelVersion memoryRegion => exact h.create pid kernelVersion memoryRegion
  | mapSegment pid addr size permissions memoryState =>
    refine h.call (f := fun s => s.heapAllocate addr.toNat size.toNat permissions memoryState true) fun p hp => ?_
    exact ProcessMemory.heapAllocate_transfer (h.owned pid p hp) addr.toNat_lt permissions memoryState true
  | controlMemory pid args =>
    refine h.call (f := fun s => s.controlMemory args >>= fun r => pure ((r.1, r.2.1), r.2.2)) fun p hp => ?_
    have hbase : (k.view p).getLinearHeapAreaAddress ≤ (k.view p).getLinearHeapBase := by
      have hle : (k.view p).region.base ≤ fcramN3dsSize := h.base _
      unfold fcramN3dsSize at hle
      unfold ProcessMemory.getLinearHeapBase
      have harea : (k.view p).getLinearHeapAreaAddress ≤ 0x30000000 := by
        unfold ProcessMemory.getLinearHeapAreaAddress linearHeapVaddr newLinearHeapVaddr
        split <;> omega
      rw [addU32_of_lt (by omega)]
      omega
    exact (ProcessMemory.controlMemory_transfer (h.owned pid p hp) hbase args (hsafe p hp)).bind fun r hr => hr

private theorem run_inv' (h : Inv k) {ops : List Op} (hsafe : SafeRun k ops) : Outcome OtherFault Inv (k.run ops) := by
  induction ops generalizing k with
  | nil => exact h
  | cons op ops ih =>
    refine Outcome.bind (P := fun k' => k.exec op = .ok k' ∧ Inv k') ?_ ?_
    · have hexec := exec_inv h hsafe.1
      cases heq : k.exec op with
      | ok k' =>
        rw [heq] at hexec
        exact ⟨rfl, hexec⟩
      | error e =>
        rw [heq] at hexec
        exact hexec
    · rintro k' ⟨heq, hk'⟩
      exact ih hk' (hsafe.2 k' heq)

/-- In every run that only releases what is safe to release, the FCRAM keeps its owners and `MemoryRegionInfo::Free`
finds allocated blocks. -/
theorem run_ownershipOk {fcram : Nat} {isNew3ds : Bool} {mode : MemoryMode} {k : KernelMemory}
    (hinit : memoryInit fcram isNew3ds mode = .ok k) (ops : List Op) (hsafe : SafeRun k ops) :
    Outcome (fun fault => fault ≠ .mustBeAllocated) OwnershipOk (k.run ops) :=
  (run_inv' (memoryInit_inv hinit) hsafe).mono fun _ h => h.ownershipOk

def pageOp (addr0 addr1 operation : UInt32) : Op :=
  .controlMemory 1 { addr0 := addr0, addr1 := addr1, size := 0x1000, operation := operation, permissions := 3 }

/-- A page is committed, mapped a second time and unmapped there. -/
def sampleOps : List Op :=
  [.createProcess 1 0x234 .application, pageOp 0x08000000 0 3, pageOp 0x0A000000 0x08000000 4,
    pageOp 0x0A000000 0x08000000 5]

private theorem safeRun_last {k : KernelMemory} {ops : List Op} {op : Op} (h : ∀ op ∈ ops, ∀ k, op.Safe k)
    (hlast : ∀ k', k.run ops = .ok k' → op.Safe k') : SafeRun k (ops ++ [op]) := by
  induction ops generalizing k with
  | nil => exact ⟨hlast k rfl, fun _ _ => trivial⟩
  | cons o ops ih =>
    refine ⟨h o List.mem_cons_self k, fun k' hk' => ih (fun o ho => h o (List.mem_cons_of_mem _ ho)) ?_⟩
    intro k'' hk''
    apply hlast
    unfold run
    rw [hk']
    exact hk''

private theorem backing_single {m : VMManager} {a b v : VirtualMemoryArea}
    (hm : m.vmaMap = [(a.base, a), (v.base, v), (b.base, b)]) (ha : a.type = .free) (hb : b.type = .free) {x p : Nat}
    (hx : m.backing x = some p) : p = v.backingMemory + (x - v.base) ∧ v.base ≤ x := by
  unfold VMManager.backing absAt at hx
  rw [hm] at hx
  simp only [List.find?] at hx
  split at hx
  · simp [VirtualMemoryArea.attrAt, ha] at hx
  · split at hx
    · rename_i h
      cases hv : v.type with
      | free => simp [VirtualMemoryArea.attrAt, hv] at hx
      | backingMemory =>
        simp [VirtualMemoryArea.attrAt, hv] at hx
        simp at h
        omega
    · split at hx
      · simp [VirtualMemoryArea.attrAt, hb] at hx
      · simp at hx

def sampleMemory : KernelMemory where
  fcram := 0x100000
  regions := fun
    | .application => .reset 0 0x04000000
    | .system => .reset 0x04000000 0x02C00000
    | .base => .reset 0x06C00000 0x01400000
  processes := fun _ => none

private theorem memoryInit_sample : memoryInit 0x100000 false .prod = .ok sampleMemory := by
  rfl

def areas (k : KernelMemory) : Option Areas := (k.processes 1).map fun p => p.vmManager.vmaMap

def sampleArea : VirtualMemoryArea where
  base := 0x08000000
  size := 0x1000
  type := .backingMemory
  permissions := VMAPermission.readWrite
  meminfoState := .privateMemory
  backingMemory := 0x040FF000

def areaBefore : VirtualMemoryArea := { size := 0x08000000 }

def areaAfter : VirtualMemoryArea := { base := 0x08001000, size := 0x37FFF000 }

private theorem sampleOps_areas : (sampleMemory.run sampleOps).toOption.bind areas = some
    [(areaBefore.base, areaBefore), (sampleArea.base, sampleArea), (areaAfter.base, areaAfter)] := by
  decide

/-- After the page has been unmapped from its second address it can be freed. -/
theorem sampleOps_ownershipOk :
    memoryInit 0x100000 false .prod = .ok sampleMemory ∧
      Outcome (fun fault => fault ≠ .mustBeAllocated) OwnershipOk
        (sampleMemory.run (sampleOps ++ [pageOp 0x08000000 0 1])) := by
  refine ⟨memoryInit_sample, run_ownershipOk memoryInit_sample _ (safeRun_last ?_ ?_)⟩
  · intro op hop k
    simp only [sampleOps, List.mem_cons, List.not_mem_nil, or_false] at hop
    rcases hop with rfl | rfl | rfl | rfl
    · trivial
    · exact fun _ _ _ hd => absurd hd (by decide)
    · exact fun _ _ _ hd => absurd hd (by decide)
    · exact fun _ _ _ hd => absurd hd (by decide)
  · intro k hk p hp _ _ _
    have hareas := sampleOps_areas
    rw [hk] at hareas
    simp only [Except.toOption, Option.bind_some, areas, hp, Option.map_some, Option.some.injEq] at hareas
    intro _ x y q _ _ hx hy
    obtain ⟨h1, h2⟩ := backing_single hareas rfl rfl hx
    obtain ⟨h3, h4⟩ := backing_single hareas rfl rfl hy
    omega

/-- The page is freed while it is still mapped at its second address. -/
def aliasedOps : List Op :=
  [.createProcess 1 0x234 .application, pageOp 0x08000000 0 3, pageOp 0x0A000000 0x08000000 4, pageOp 0x08000000 0 1]

/-- The page is free and mapped at once, and when it is freed at its second address the assertion fails. -/
theorem aliasedOps_not_ownershipOk :
    memoryInit 0x100000 false .prod = .ok sampleMemory ∧ ∃ k, sampleMemory.run aliasedOps = .ok k ∧ ¬ OwnershipOk k ∧
      k.exec (pageOp 0x0A000000 0 1) = .error .mustBeAllocated := by
  refine ⟨memoryInit_sample, _, rfl, ?_, rfl⟩
  intro h
  refine h.free_or_mapped .application 1 _ 0x0A000000 0x03FFF000 rfl (by decide) ?_
  exact ⟨(0, 0x04000000), by decide, by decide, by decide⟩

end KernelMemory

end SweepDSEmu
