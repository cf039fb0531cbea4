import SweepDSEmu.Kernel.ProcessMemory
import SweepDSEmu.Kernel.VMManagerAligned
import SweepDSEmu.Lib.Outcome

/-!
# Map and Unmap of a process

`Map` makes all its checks before it changes the address space.  `Unmap` frees the target first and looks at the
state of the source afterwards, so a wrong source leaves it with the target gone.
-/

namespace SweepDSEmu

open VirtualMemoryArea

theorem unwrap_eq_ok {α : Type} {x : Option α} {a : α} : unwrap x = .ok a ↔ x = some a := by
  cases x with
  | none => exact iff_of_false (fun h => nomatch h) (fun h => nomatch h)
  | some b =>
    constructor
    · rintro ⟨⟩
      rfl
    · rintro ⟨⟩
      rfl

namespace ProcessMemory

def pageMap (s : ProcessMemory) (page : Nat) : Option PageAttr := s.process.vmManager.pageMap page

def AllOrNothing (s : ProcessMemory) (call : Except Fault (ResultCode × ProcessMemory)) : Prop :=
  ∀ r s', call = .ok (r, s') → r ≠ .success → ∀ page, s'.pageMap page = s.pageMap page

/-- The state in which `Map` leaves the source. -/
def sourceState (privileged : Bool) : MemoryState := if privileged then .locked else .aliased

/-- When the target of an `Unmap` can be unmapped, the source has the state that `Map` gives it. -/
def SourceReady (s : ProcessMemory) (target source size : Nat) (privileged : Bool) : Prop :=
  ¬ (privileged = false ∧ OutsideHeap source size) → ¬ Overlapping target source size →
    s.process.vmManager.Mapped target (target + size) →
    s.process.vmManager.Mapped source (source + size) ∧
      s.process.vmManager.InState (sourceState privileged) VMAPermission.none source (source + size)

variable {s s' : ProcessMemory} {target source size : Nat} {perms : VMAPermission} {privileged : Bool}

variable {es ns : MemoryState} {ep np : VMAPermission}

theorem changeMemoryState_exec {r : ResultCode} (h : s.changeMemoryState target size es ep ns np = .ok (r, s')) :
    ∃ m', s' = s.setVMManager m' ∧
      s.process.vmManager.exec (.changeMemoryState target size es ep ns np) = some (r, m') := by
  obtain ⟨⟨r₁, m₁⟩, h₁, h⟩ := ok_of_bind h
  cases h
  exact ⟨m₁, rfl, unwrap_eq_ok.mp h₁⟩

theorem changeMemoryState_returns {r : ResultCode}
    {m' : VMManager} (h : s.process.vmManager.exec (.changeMemoryState target size es ep ns np) = some (r, m')) :
    s.changeMemoryState target size es ep ns np = .ok (r, s.setVMManager m') := by
  have h : s.process.vmManager.changeMemoryState target size es ep ns np = some (r, m') := h
  unfold changeMemoryState
  rw [h]
  rfl

private theorem changeMemoryState_keeps (hm : s.process.vmManager.Sound) (ht : target < 2 ^ 32) (hs : size < 2 ^ 32) : s.AllOrNothing (s.changeMemoryState target size es ep ns np) := by
  intro r s' h hr page
  obtain ⟨m', rfl, hexec⟩ := changeMemoryState_exec h
  have hop : VMManager.Op.IsU32 (.changeMemoryState target size es ep ns np) := ⟨ht, hs⟩
  exact (VMManager.exec_ok hm.tiled hm.unlocked hop hexec).keeps hr _

theorem mapped_of_changeMemoryState {m m' : VMManager} (hm : m.Sound) (ht : target < 2 ^ 32) (hs : size < 2 ^ 32)
    (h : m.exec (.changeMemoryState target size es ep ns np) = some (.success, m')) :
    VMManager.RangeOk target size ∧ m'.Sound ∧ m'.Mapped target (target + size) := by
  have hr := VMManager.rangeOk_of_changeMemoryState hm.unlocked ht hs h
  obtain ⟨hmapped, -⟩ := (VMManager.changeMemoryState_success_iff hm.tiled hm.unlocked hr h).mp rfl
  have hop : VMManager.Op.IsU32 (.changeMemoryState target size es ep ns np) := ⟨ht, hs⟩
  refine ⟨hr, hm.exec hop h, fun x hx hx' a ha => ?_⟩
  rw [(VMManager.exec_ok hm.tiled hm.unlocked hop h).changes rfl x] at ha
  split at ha
  · obtain ⟨b, hb, rfl⟩ := Option.map_eq_some_iff.mp ha
    exact hmapped x hx hx' b hb
  · exact hmapped x hx hx' a ha

private theorem mapAlias_success (hm : s.process.vmManager.Sound) (hpos : 0 < size)
    (hfits : source + size ≤ VMManager.maxAddress)
    (hmapped : s.process.vmManager.Mapped source (source + size)) {state : MemoryState} {r : ResultCode}
    (h : s.mapAlias target source size state perms = .ok (r, s')) : r = .success := by
  obtain ⟨res, hres, h⟩ := ok_of_bind h
  obtain ⟨res', hres', herr⟩ := VMManager.getBackingBlocksForRange_returns hm.tiled hpos hfits
  rw [hres', unwrap_eq_ok] at hres
  cases hres
  cases res with
  | error e => exact absurd hmapped (herr e rfl).2
  | ok blocks =>
    obtain ⟨m', -, h⟩ := ok_of_bind h
    cases h
    rfl

theorem apart_of_not_overlapping (h : ¬ Overlapping target source size) {x : Nat} (hx : source ≤ x)
    (hx' : x < source + size) : ¬ (target ≤ x ∧ x < target + size) := by
  unfold Overlapping subU32 at h
  omega

theorem map_allOrNothing (hm : s.process.vmManager.Sound) (hs : source < 2 ^ 32) (hz : size < 2 ^ 32) :
    s.AllOrNothing (s.map target source size perms privileged) := by
  intro r s' h hr page
  unfold map at h
  split at h
  · cases h
    rfl
  split at h
  · split at h
    · split at h
      · exact changeMemoryState_keeps hm hs hz r s' h hr page
      · cases h
        rfl
    · cases h
      rfl
  obtain ⟨b, -, h⟩ := ok_of_bind h
  cases b with
  | true =>
    cases h
    rfl
  | false =>
    obtain ⟨⟨r₁, s₁⟩, h₁, h⟩ := ok_of_bind h
    obtain ⟨m₁, rfl, hexec⟩ := changeMemoryState_exec h₁
    simp only at h
    split at h
    · rename_i hr₁
      cases h
      exact changeMemoryState_keeps hm hs hz _ _ h₁ hr page
    · -- the source has been checked, so nothing fails any more
      rename_i hr₁
      have hr₁ : r₁ = .success := not_not.mp hr₁
      subst hr₁
      obtain ⟨hrange, hm₁, hmapped⟩ := mapped_of_changeMemoryState hm hs hz hexec
      exact absurd (mapAlias_success (s := s.setVMManager m₁) hm₁ hrange.pos hrange.fits hmapped h) hr

theorem unmap_of_some (hsource : ¬ (privileged = false ∧ OutsideHeap source size))
    (hover : ¬ Overlapping target source size) {r : ResultCode} {m : VMManager}
    (h : s.process.vmManager.unmapRange target size = some (r, m)) :
    s.unmap target source size perms privileged = if r ≠ .success then .ok (r, s.setVMManager m) else
      (s.setVMManager m).changeMemoryState source size (sourceState privileged) VMAPermission.none .privateMemory
        perms := by
  unfold unmap
  rw [if_neg (by simpa using hsource), if_neg hover, h]
  rfl

private theorem unmap_of_none (hsource : ¬ (privileged = false ∧ OutsideHeap source size))
    (hover : ¬ Overlapping target source size) (h : s.process.vmManager.unmapRange target size = none) :
    s.unmap target source size perms privileged = .error .assertion := by
  unfold unmap
  rw [if_neg (by simpa using hsource), if_neg hover, h]
  rfl

/-- `Unmap` changes no page when it fails, exactly when the source is ready. -/
theorem unmap_allOrNothing_iff (hm : s.process.vmManager.Sound) (ht : target % pageSize = 0)
    (hs : source % pageSize = 0) (hz : size % pageSize = 0) (htarget : target + size ≤ VMManager.maxAddress)
    (hsource : source + size ≤ VMManager.maxAddress) :
    s.AllOrNothing (s.unmap target source size perms privileged) ↔ s.SourceReady target source size privileged := by
  have hmax : VMManager.maxAddress < 2 ^ 32 := by decide
  by_cases hout : privileged = false ∧ OutsideHeap source size
  · refine iff_of_true ?_ fun hno => absurd hout hno
    intro r s' h hr page
    unfold unmap at h
    rw [if_pos (by simpa using hout)] at h
    cases h
    rfl
  by_cases hover : Overlapping target source size
  · refine iff_of_true ?_ fun _ hno => absurd hover hno
    intro r s' h hr page
    unfold unmap at h
    rw [if_neg (by simpa using hout), if_pos hover] at h
    split at h
    · split at h
      · exact changeMemoryState_keeps hm (by omega) (by omega) r s' h hr page
      · cases h
        rfl
    · cases h
      rfl
  rcases Nat.eq_zero_or_pos size with rfl | hpos
  · -- `UnmapRange` asserts that the range is not empty
    refine iff_of_true ?_ fun _ _ _ => ⟨fun x hx hx' => by omega, fun x hx hx' => by omega⟩
    intro r s' h hr page
    cases hunmap : s.process.vmManager.unmapRange target 0 with
    | none =>
      rw [unmap_of_none hout hover hunmap] at h
      cases h
    | some c =>
      have hrange := VMManager.rangeOk_of_unmapRange (by omega) (by omega) hunmap
      exact absurd hrange.pos (Nat.lt_irrefl 0)
  have hrange : VMManager.RangeOk target size := ⟨hz, ht, hpos, htarget⟩
  have hrange' : VMManager.RangeOk source size := ⟨hz, hs, hpos, hsource⟩
  have hop : VMManager.Op.IsU32 (.unmapRange target size) :=
    ⟨show target < 2 ^ 32 by omega, show size < 2 ^ 32 by omega⟩
  obtain ⟨⟨r₁, m₁⟩, h₁⟩ := Option.isSome_iff_exists.mp
    (VMManager.exec_isSome hm.tiled hm.unlocked (show VMManager.Op.InRange (.unmapRange target size) from hrange))
  have hok := VMManager.exec_ok hm.tiled hm.unlocked hop h₁
  have hm₁ := hm.exec hop h₁
  have h₁ : s.process.vmManager.unmapRange target size = some (r₁, m₁) := h₁
  have hiff := VMManager.unmapRange_success_iff hm.tiled hrange h₁
  rw [unmap_of_some hout hover h₁]
  by_cases hr₁ : r₁ = .success
  swap
  · -- the target cannot be unmapped
    refine iff_of_true ?_ fun _ _ hmapped => absurd (hiff.mpr hmapped) hr₁
    intro r s' h hr page
    rw [if_pos hr₁] at h
    cases h
    exact hok.keeps hr₁ _
  subst hr₁
  have hmapped := hiff.mp rfl
  have hop' : VMManager.Op.InRange (.changeMemoryState source size (sourceState privileged) VMAPermission.none
    .privateMemory perms) := hrange'
  obtain ⟨⟨r₂, m₂⟩, h₂⟩ := Option.isSome_iff_exists.mp (VMManager.exec_isSome hm₁.tiled hm₁.unlocked hop')
  have hop₂ : VMManager.Op.IsU32 (.changeMemoryState source size (sourceState privileged) VMAPermission.none
    .privateMemory perms) := ⟨show source < 2 ^ 32 by omega, show size < 2 ^ 32 by omega⟩
  have hok₂ := VMManager.exec_ok hm₁.tiled hm₁.unlocked hop₂ h₂
  rw [if_neg (not_not.mpr rfl), changeMemoryState_returns h₂]
  have hiff₂ := VMManager.changeMemoryState_success_iff hm₁.tiled hm₁.unlocked hrange' h₂
  -- the source is as before
  have hsame : ∀ x, source ≤ x → x < source + size → absAt m₁.vmaMap x = absAt s.process.vmManager.vmaMap x := by
    intro x hx hx'
    rw [hok.changes rfl x]
    exact if_neg (apart_of_not_overlapping hover hx hx')
  have hready : r₂ = .success ↔ s.process.vmManager.Mapped source (source + size) ∧
      s.process.vmManager.InState (sourceState privileged) VMAPermission.none source (source + size) := by
    rw [hiff₂]
    constructor
    · rintro ⟨h1, h2⟩
      exact ⟨fun x hx hx' => hsame x hx hx' ▸ h1 x hx hx', fun x hx hx' => hsame x hx hx' ▸ h2 x hx hx'⟩
    · rintro ⟨h1, h2⟩
      exact ⟨fun x hx hx' => (hsame x hx hx').symm ▸ h1 x hx hx', fun x hx hx' => (hsame x hx hx').symm ▸ h2 x hx hx'⟩
  constructor
  · intro hall _ _ _
    rw [← hready]
    by_contra hr₂
    -- the first page of the target was not free, and it is now
    have hpage := hall r₂ _ rfl hr₂ (target / pageSize)
    have hmul : target / pageSize * pageSize = target := Nat.div_mul_cancel (Nat.dvd_of_mod_eq_zero ht)
    have hpage : absAt m₂.vmaMap (target / pageSize * pageSize) =
        absAt s.process.vmManager.vmaMap (target / pageSize * pageSize) := hpage
    rw [hmul, hok₂.keeps hr₂ target, hok.changes rfl target] at hpage
    have hin : VMManager.Op.target (.unmapRange target size) ≤ target ∧
        target < VMManager.Op.target (.unmapRange target size) + VMManager.Op.size (.unmapRange target size) :=
      ⟨le_rfl, show target < target + size by omega⟩
    rw [if_pos hin] at hpage
    obtain ⟨a, habs⟩ := VMManager.exists_attr hm.tiled (show target < VMManager.maxAddress by omega)
    have hnot := hmapped target le_rfl (by omega) a habs
    rw [habs] at hpage
    exact hnot (congrArg PageAttr.type (Option.some_injective _ hpage)).symm
  · intro hsr r s' h hr page
    cases h
    exact absurd (hready.mpr (hsr hout hover hmapped)) hr

/-- `Map` is all or nothing; `Unmap` is, exactly when the source is ready. -/
theorem map_unmap_allOrNothing_iff (s : ProcessMemory) (hm : s.process.vmManager.Reachable) (target source size : Nat)
    (perms : VMAPermission) (privileged : Bool) (ht : target % pageSize = 0) (hs : source % pageSize = 0)
    (hz : size % pageSize = 0) (htarget : target + size ≤ VMManager.maxAddress)
    (hsource : source + size ≤ VMManager.maxAddress) :
    (s.AllOrNothing (s.map target source size perms privileged) ∧
      s.AllOrNothing (s.unmap target source size perms privileged)) ↔
      s.SourceReady target source size privileged := by
  have hmax : VMManager.maxAddress < 2 ^ 32 := by decide
  rw [unmap_allOrNothing_iff hm.sound ht hs hz htarget hsource]
  exact and_iff_right (map_allOrNothing hm.sound (by omega) (by omega))

/-- A process whose address space some calls have made. -/
def ofVMManager (m : VMManager) : ProcessMemory where
  fcram := 0x100000
  region := MemoryRegionInfo.reset 0 0x4000000
  process := { vmManager := m, kernelVersion := 0, memoryRegion := .application }

def aliasedOps : List VMManager.Op :=
  [.mapBackingMemory 0x8000000 0x100000 0x1000 .aliased, .mapBackingMemory 0x10000000 0x100000 0x1000 .aliasMemory]

theorem aliasedOps_allOrNothing :
    ∃ m, VMManager.reset.run aliasedOps = some m ∧
      (ofVMManager m).AllOrNothing ((ofVMManager m).unmap 0x10000000 0x8000000 0x1000 3 false) := by
  obtain ⟨m, hm⟩ : ∃ m, m = VMManager.mk
    [(0, { size := 0x8000000 }),
      (0x8000000, ⟨0x8000000, 0x1000, .backingMemory, 3, .aliased, 0x100000⟩),
      (0x8001000, { base := 0x8001000, size := 0x7FFF000 }),
      (0x10000000, ⟨0x10000000, 0x1000, .backingMemory, 3, .aliasMemory, 0x100000⟩),
      (0x10001000, { base := 0x10001000, size := 0x2FFFF000 })] false := ⟨_, rfl⟩
  have hrun : VMManager.reset.run aliasedOps = some m := by
    rw [hm]
    rfl
  refine ⟨m, hrun, ((map_unmap_allOrNothing_iff (ofVMManager m)
    (VMManager.Reachable.reset.run aliasedOps (by decide) hrun) 0x10000000 0x8000000 0x1000 3 false rfl rfl rfl
    (by decide) (by decide)).mpr ?_).2⟩
  -- the source is one area
  have habs : ∀ x, 0x8000000 ≤ x → x < 0x8001000 →
      absAt m.vmaMap x = some ⟨.backingMemory, 3, .aliased, 0x100000 + (x - 0x8000000)⟩ := by
    intro x hx hx'
    rw [hm, absAt_cons, if_neg (by unfold stop; simp only; omega), absAt_cons,
      if_pos (by unfold stop; simp only; omega)]
    rfl
  intro _ _ _
  constructor
  · intro x hx hx' a ha
    have ha := (habs x hx hx').symm.trans ha
    cases ha
    exact fun hfree => nomatch hfree
  · intro x hx hx' a ha
    have ha := (habs x hx hx').symm.trans ha
    cases ha
    exact ⟨rfl, show (3 : VMAPermission) &&& VMAPermission.none = VMAPermission.none by decide⟩

def heapOps : List VMManager.Op := [.mapBackingMemory 0x8000000 0x100000 0x2000 .privateMemory]

/-- `Unmap` of the second page with the first one as its source fails, and the second page is gone. -/
theorem heapOps_unmap_half_done :
    ∃ m, VMManager.reset.run heapOps = some m ∧ m.Reachable ∧
      ¬ (ofVMManager m).AllOrNothing ((ofVMManager m).unmap 0x8001000 0x8000000 0x1000 3 false) := by
  refine ⟨_, rfl, VMManager.Reachable.reset.run heapOps (by decide) rfl, ?_⟩
  intro h
  have hpage := h .invalidAddressState _ rfl (by decide) 0x8001
  exact absurd hpage (by decide)


end ProcessMemory

end SweepDSEmu
