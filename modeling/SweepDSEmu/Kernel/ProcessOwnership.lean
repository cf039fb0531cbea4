import SweepDSEmu.Kernel.ProcessMemory
import SweepDSEmu.Lib.Outcome

/-!
# Who owns the FCRAM of a process

A call of a process moves FCRAM offsets between the free blocks of its region and `holdingMemory`, and everything that
is mapped is held, see `Owned` and `Transfer`.  All calls keep this, except that `MEMOP_FREE` does so only for a range
that is `ReleaseSafe`: `HeapFree` gives back whatever is behind the range, also when it is mapped a second time, and
`LinearFree` gives back the offsets that belong to the addresses, whatever is mapped there.
-/

namespace SweepDSEmu

open IntervalSet

/-- An error that is not the one of `MemoryRegionInfo::Free`. -/
def OtherFault (f : Fault) : Prop := f ≠ .mustBeAllocated

theorem otherFault_assertion : OtherFault .assertion := fun h => nomatch h

private theorem outcome_assert {α : Type} {Q : α → Prop} {cond : Prop} [Decidable cond] {f : Unit → Except Fault α}
    (h : cond → Outcome OtherFault Q (f ())) : Outcome OtherFault Q (assert cond >>= f) := by
  unfold assert
  split
  · rename_i hc
    exact h hc
  · exact otherFault_assertion

private theorem outcome_unwrap {α β : Type} {Q : β → Prop} {x : Option α} {f : α → Except Fault β}
    (h : ∀ a, x = some a → Outcome OtherFault Q (f a)) : Outcome OtherFault Q (unwrap x >>= f) := by
  cases x with
  | none => exact otherFault_assertion
  | some a => exact h a rfl

private theorem outcome_getFCRAMRef {α : Type} {Q : α → Prop} {fcram offset : Nat} {f : Nat → Except Fault α}
    (h : offset ≤ fcramN3dsSize → Outcome OtherFault Q (f (fcram + offset))) :
    Outcome OtherFault Q (getFCRAMRef fcram offset >>= f) := by
  unfold getFCRAMRef assert
  split
  · rename_i hle
    exact h hle
  · exact otherFault_assertion

namespace VMManager

variable {m : VMManager}

/-- The address space is in order, and its new pages are among the given pointers. -/
def Gains (m : VMManager) (new : Nat → Prop) (m' : VMManager) : Prop :=
  m'.Intact ∧ ∀ x p, m'.backing x = some p → m.backing x = some p ∨ new p

theorem mapBlock_spec (hm : m.Intact) {target memory size : Nat} (ht : target < 2 ^ 32) (hs : size < 2 ^ 32)
    (state : MemoryState) (perms : VMAPermission) :
    Outcome OtherFault (fun m' => size ≤ maxAddress ∧ m.Gains (fun p => ∃ i < size, p = memory + i) m')
      (m.mapBlock target memory size state perms) := by
  apply outcome_unwrap
  rintro ⟨r, m₁⟩ hmap
  obtain ⟨hm₁, hnew, hkey⟩ := mapBackingMemory_backing hm ht hs hmap
  cases r with
  | error e => exact otherFault_assertion
  | ok vma =>
    obtain ⟨hle, pre, v, post, hv, rfl⟩ := hkey vma rfl
    obtain ⟨k, m₂, heq, hm₂, hsame⟩ := reprotect_backing hm₁ hv perms
    simp only [heq, unwrap, bind, Except.bind, pure, Except.pure]
    refine ⟨by omega, hm₂, ?_⟩
    intro x p hp
    rw [hsame x] at hp
    rcases hnew x p hp with h | ⟨h1, h2, h3⟩
    · exact Or.inl h
    · exact Or.inr ⟨x - target, by omega, h3⟩

theorem mapBlocks_spec (hm : m.Intact) (state : MemoryState) (perms : VMAPermission) (blocks : List (Nat × Nat))
    {target : Nat} (ht : target < 2 ^ 32) (hs : ∀ b ∈ blocks, b.2 < 2 ^ 32) :
    Outcome OtherFault (m.Gains fun p => ∃ b ∈ blocks, ∃ i < b.2, p = b.1 + i)
      (mapBlocks state perms blocks target m) := by
  induction blocks generalizing m target with
  | nil => exact ⟨hm, fun x p hp => Or.inl hp⟩
  | cons b blocks ih =>
    obtain ⟨memory, size⟩ := b
    refine (mapBlock_spec hm ht (hs _ List.mem_cons_self) state perms).bind ?_
    rintro m₁ ⟨-, hm₁, hnew⟩
    refine (ih hm₁ (addU32_lt _ _) fun b hb => hs b (List.mem_cons_of_mem _ hb)).mono ?_
    rintro m₂ ⟨hm₂, hnew'⟩
    refine ⟨hm₂, fun x p hp => ?_⟩
    rcases hnew' x p hp with hp | ⟨b, hb, hp⟩
    · rcases hnew x p hp with hp | hp
      · exact Or.inl hp
      · exact Or.inr ⟨_, List.mem_cons_self, hp⟩
    · exact Or.inr ⟨b, List.mem_cons_of_mem _ hb, hp⟩

theorem mapIntervals_spec (hm : m.Intact) (fcram : Nat) (state : MemoryState) (perms : VMAPermission)
    (intervals : IntervalSet) {target : Nat} (ht : target < 2 ^ 32) (hne : ∀ p ∈ intervals, p.1 < p.2) :
    Outcome OtherFault (m.Gains fun p => ∃ o ∈ intervals.points, p = fcram + o)
      (mapIntervals fcram state perms intervals target m) := by
  induction intervals generalizing m target with
  | nil => exact ⟨hm, fun x p hp => Or.inl hp⟩
  | cons q intervals ih =>
    obtain ⟨lower, upper⟩ := q
    have hlt : lower < upper := hne _ List.mem_cons_self
    apply outcome_getFCRAMRef
    intro _
    apply outcome_getFCRAMRef
    intro hupper
    unfold fcramN3dsSize at hupper
    have hsize : subU32 upper lower = upper - lower := subU32_of_le (by omega) (by omega)
    refine (mapBlock_spec hm ht (subU32_lt _ _) state perms).bind ?_
    rintro m₁ ⟨-, hm₁, hnew⟩
    refine (ih hm₁ (addU32_lt _ _) fun p hp => hne p (List.mem_cons_of_mem _ hp)).mono ?_
    rintro m₂ ⟨hm₂, hnew'⟩
    refine ⟨hm₂, fun x p hp => ?_⟩
    rw [points_cons]
    rcases hnew' x p hp with hp | ⟨o, ho, hp⟩
    · rcases hnew x p hp with hp | ⟨i, hi, hp⟩
      · exact Or.inl hp
      · exact Or.inr ⟨lower + i, Or.inl ⟨by simp only; omega, by simp only; omega⟩, by omega⟩
    · exact Or.inr ⟨o, Or.inr ho, hp⟩

end VMManager

namespace ProcessMemory

variable {s s' : ProcessMemory}

def held (s : ProcessMemory) : Set Nat := s.process.holdingMemory.points

def free (s : ProcessMemory) : Set Nat := s.region.freePoints

/-- The host pointer behind an address of the process. -/
def backing (s : ProcessMemory) (x : Nat) : Option Nat := s.process.vmManager.backing x

structure Owned (s : ProcessMemory) : Prop where
  intact : s.process.vmManager.Intact
  unlocked : s.region.isLocked = false
  mapped : ∀ x p, s.backing x = some p → ∃ o ∈ s.held, p = s.fcram + o
  apart : ∀ o ∈ s.held, o ∉ s.free

structure Transfer (s s' : ProcessMemory) : Prop where
  owned : s'.Owned
  fcram : s'.fcram = s.fcram
  region : MemoryRegionInfo.SameRegion s.region s'.region
  memoryRegion : s'.process.memoryRegion = s.process.memoryRegion
  conserved : ∀ o, o ∈ s'.held ∨ o ∈ s'.free → o ∈ s.held ∨ o ∈ s.free

def Mapped (s : ProcessMemory) (target size : Nat) : Prop :=
  ∀ x, target ≤ x → x < target + size → s.backing x ≠ none

/-- No page behind the range is mapped a second time. -/
def Exclusive (s : ProcessMemory) (target size : Nat) : Prop :=
  ∀ x y p, target ≤ x → x < target + size → s.backing x = some p → s.backing y = some p → x = y

/-- The process holds the FCRAM pages that belong to a range of the linear heap, and maps them nowhere else. -/
def OwnsLinear (s : ProcessMemory) (target size : Nat) : Prop :=
  ∀ x, target ≤ x → x < target + size →
    x - s.getLinearHeapAreaAddress ∈ s.held ∧
      ∀ y, s.backing y = some (s.fcram + (x - s.getLinearHeapAreaAddress)) → target ≤ y ∧ y < target + size

/-- A range that `MEMOP_FREE` can be called for. -/
def ReleaseSafe (s : ProcessMemory) (target size : Nat) : Prop :=
  s.Mapped target size →
    if heapVaddr ≤ target ∧ target < heapVaddrEnd then ¬ OutsideHeap target size → s.Exclusive target size
    else ¬ s.OutsideLinearHeap target size → s.OwnsLinear target size

theorem Owned.refl (h : s.Owned) : Transfer s s :=
  ⟨h, rfl, MemoryRegionInfo.SameRegion.refl _, rfl, fun _ ho => ho⟩

private theorem Owned.setVMManager (h : s.Owned) {m : VMManager} (hm : m.Intact)
    (hsub : ∀ x p, m.backing x = some p → ∃ y, s.backing y = some p) : Transfer s (s.setVMManager m) where
  owned := by
    refine ⟨hm, h.unlocked, ?_, h.apart⟩
    intro x p hp
    obtain ⟨y, hy⟩ := hsub x p hp
    exact h.mapped y p hy
  fcram := rfl
  region := MemoryRegionInfo.SameRegion.refl _
  memoryRegion := rfl
  conserved _ ho := ho

variable {region : MemoryRegionInfo} {size target : Nat}

private theorem Owned.allocate (h : s.Owned) {blocks : IntervalSet} {m : VMManager}
    {size : Nat} (hregion : MemoryRegionInfo.SameRegion s.region region) (hsub : blocks.points ⊆ s.free)
    (hfree : region.freePoints = s.free \ blocks.points)
    (hm : s.process.vmManager.Gains (fun p => ∃ o ∈ blocks.points, p = s.fcram + o) m) :
    Transfer s (({ s with region := region }.setVMManager m).hold blocks size) := by
  have hheld : (({ s with region := region }.setVMManager m).hold blocks size).held = s.held ∪ blocks.points :=
    points_union _ _
  have hfree' : (({ s with region := region }.setVMManager m).hold blocks size).free = s.free \ blocks.points := hfree
  refine ⟨⟨hm.1, hregion.locked.trans h.unlocked, ?_, ?_⟩, rfl, hregion, rfl, ?_⟩
  · intro x p hp
    rw [hheld]
    rcases hm.2 x p hp with hp | ⟨o, ho, hp⟩
    · obtain ⟨o, ho, hp⟩ := h.mapped x p hp
      exact ⟨o, Or.inl ho, hp⟩
    · exact ⟨o, Or.inr ho, hp⟩
  · intro o ho ho'
    rw [hheld] at ho
    rw [hfree'] at ho'
    rcases ho with ho | ho
    · exact h.apart o ho ho'.1
    · exact ho'.2 ho
  · intro o ho
    rw [hheld, hfree'] at ho
    rcases ho with (ho | ho) | ho
    · exact Or.inl ho
    · exact Or.inr (hsub ho)
    · exact Or.inr ho.1

private theorem Owned.setRegion (h : s.Owned)
    (hregion : MemoryRegionInfo.SameRegion s.region region) (hfree : region.freePoints ⊆ s.free) :
    Transfer s { s with region := region } where
  owned := ⟨h.intact, hregion.locked.trans h.unlocked, h.mapped, fun o ho ho' => h.apart o ho (hfree ho')⟩
  fcram := rfl
  region := hregion
  memoryRegion := rfl
  conserved _ ho := ho.imp id fun ho => hfree ho

theorem heapAllocate_transfer (h : s.Owned) (ht : target < 2 ^ 32) (perms : VMAPermission)
    (memoryState : MemoryState) (skipRangeCheck : Bool) :
    Outcome OtherFault (fun r => Transfer s r.2) (s.heapAllocate target size perms memoryState skipRangeCheck) := by
  unfold heapAllocate
  split
  · exact h.refl
  · refine Outcome.bind (P := fun _ => True) ?_ ?_
    · exact outcome_unwrap fun _ _ => trivial
    · intro occupied _
      cases occupied with
      | true => exact h.refl
      | false =>
        obtain ⟨blocks, region, heq, hregion, hsub, hfree, hne⟩ := MemoryRegionInfo.heapAllocate_spec h.unlocked size
        simp only [heq, bind, Except.bind, pure, Except.pure, Bool.false_eq_true, if_false]
        split
        · refine h.setRegion hregion ?_
          rw [hfree]
          exact fun o ho => ho.1
        · refine (VMManager.mapIntervals_spec h.intact s.fcram memoryState perms blocks ht hne).bind ?_
          intro m hm
          exact h.allocate hregion hsub hfree hm

private theorem mapLinear_transfer (h : s.Owned) {target offset size : Nat}
    (ht : target < 2 ^ 32) (hs : size < 2 ^ 32) (perms : VMAPermission)
    (hregion : MemoryRegionInfo.SameRegion s.region region) (hsub : between offset (addU32 offset size) ⊆ s.free)
    (hfree : region.freePoints = s.free \ between offset (addU32 offset size)) :
    Outcome OtherFault (fun r => Transfer s r.2) ({ s with region := region }.mapLinear target offset size perms) := by
  apply outcome_getFCRAMRef
  intro hoffset
  refine (VMManager.mapBlock_spec h.intact ht hs .continuous perms).bind ?_
  rintro m ⟨hle, hm, hnew⟩
  have hpoints := points_singleton offset (addU32 offset size)
  refine h.allocate hregion (by rw [hpoints]; exact hsub) (by rw [hpoints]; exact hfree) ⟨hm, ?_⟩
  intro x p hp
  rcases hnew x p hp with hp | ⟨i, hi, hp⟩
  · exact Or.inl hp
  · -- the offset and the size are too small for the sum to wrap around
    have hadd : addU32 offset size = offset + size := by
      apply addU32_of_lt
      unfold fcramN3dsSize at hoffset
      unfold VMManager.maxAddress at hle
      omega
    rw [hpoints, hadd]
    exact Or.inr ⟨offset + i, ⟨by omega, by omega⟩, by rw [hp]; exact Nat.add_assoc _ _ _⟩

theorem linearAllocate_transfer (h : s.Owned) (ht : target < 2 ^ 32) (hs : size < 2 ^ 32) (perms : VMAPermission) :
    Outcome OtherFault (fun r => Transfer s r.2) (s.linearAllocate target size perms) := by
  unfold linearAllocate
  split
  · obtain ⟨o, region, heq, hregion, hspec⟩ := MemoryRegionInfo.linearAllocate_spec h.unlocked size
    simp only [heq, bind, Except.bind]
    cases o with
    | none =>
      obtain rfl : region = s.region := hspec
      exact h.refl
    | some offset => exact mapLinear_transfer h (addU32_lt _ _) hs perms hregion hspec.1 hspec.2
  · split
    · exact h.refl
    · obtain ⟨b, region, heq, hregion, hspec⟩ :=
        MemoryRegionInfo.linearAllocateAt_spec h.unlocked (subU32 target s.getLinearHeapAreaAddress) size
      simp only [heq, bind, Except.bind]
      cases b with
      | false =>
        obtain rfl : region = s.region := hspec
        exact h.refl
      | true => exact mapLinear_transfer h ht hs perms hregion hspec.1 hspec.2

/-- The offsets behind the addresses from `a` to `e`. -/
def behind (s : ProcessMemory) (a e : Nat) : Set Nat := {o | ∃ x, a ≤ x ∧ x < e ∧ s.backing x = some (s.fcram + o)}

/-- What the loop of `HeapFree` does. -/
structure Released (s : ProcessMemory) (freed : Set Nat) (s' : ProcessMemory) : Prop where
  fcram : s'.fcram = s.fcram
  vmManager : s'.process.vmManager = s.process.vmManager
  memoryRegion : s'.process.memoryRegion = s.process.memoryRegion
  region : MemoryRegionInfo.SameRegion s.region s'.region
  held : s'.held = s.held \ freed
  free : s'.free = s.free ∪ freed

private theorem freeBlocks_released {blocks : List (Nat × Nat)} {a e : Nat} (hu : s.region.isLocked = false)
    (he : e ≤ 2 ^ 31) (hlist : s.process.vmManager.Lists blocks a e)
    (hinj : ∀ x y p, a ≤ x → x < e → a ≤ y → y < e → s.backing x = some p → s.backing y = some p → x = y)
    (hown : ∀ o ∈ s.behind a e, o ∉ s.free) :
    Outcome OtherFault (Released s (s.behind a e)) (freeBlocks blocks s) := by
  induction blocks generalizing a s with
  | nil =>
    obtain rfl : a = e := hlist
    have hempty : s.behind a a = ∅ := by
      ext o
      simp only [behind, Set.mem_ofPred_eq, Set.mem_empty_iff_false, iff_false]
      rintro ⟨x, h1, h2, -⟩
      omega
    rw [hempty]
    refine ⟨rfl, rfl, rfl, MemoryRegionInfo.SameRegion.refl _, ?_, ?_⟩
    · ext o
      simp
    · ext o
      simp
  | cons b blocks ih =>
    obtain ⟨memory, size⟩ := b
    obtain ⟨hblock, hlist⟩ := hlist
    have hle := hlist.le
    unfold freeBlocks getFCRAMOffset assert
    split
    · rename_i hin
      unfold fcramN3dsSize at hin
      simp only [bind, Except.bind, pure, Except.pure]
      have hoff : (memory - s.fcram) % 2 ^ 32 = memory - s.fcram := Nat.mod_eq_of_lt (by omega)
      have hstop : addU32 (memory - s.fcram) size = memory - s.fcram + size := addU32_of_lt (by omega)
      -- the offsets of the first block
      have hfirst : between (memory - s.fcram) (memory - s.fcram + size) = s.behind a (a + size) := by
        ext o
        simp only [mem_between, behind, Set.mem_ofPred_eq]
        constructor
        · rintro ⟨h1, h2⟩
          refine ⟨a + (o - (memory - s.fcram)), by omega, by omega, ?_⟩
          have := hblock (o - (memory - s.fcram)) (by omega)
          rw [show s.fcram + o = memory + (o - (memory - s.fcram)) by omega]
          exact this
        · rintro ⟨x, h1, h2, hx⟩
          have := hblock (x - a) (by omega)
          rw [show a + (x - a) = x by omega] at this
          have hx : s.process.vmManager.backing x = some (s.fcram + o) := hx
          rw [this] at hx
          have := Option.some.inj hx
          omega
      have hsplit : s.behind a e = s.behind a (a + size) ∪ s.behind (a + size) e := by
        ext o
        constructor
        · rintro ⟨x, h1, h2, hx⟩
          by_cases hlt : x < a + size
          · exact Or.inl ⟨x, h1, hlt, hx⟩
          · exact Or.inr ⟨x, by omega, h2, hx⟩
        · rintro (⟨x, h1, h2, hx⟩ | ⟨x, h1, h2, hx⟩)
          · exact ⟨x, h1, by omega, hx⟩
          · exact ⟨x, by omega, h2, hx⟩
      have halloc : ∀ o ∈ between (memory - s.fcram) (addU32 (memory - s.fcram) size), o ∉ s.region.freePoints := by
        intro o ho
        rw [hstop, hfirst] at ho
        exact hown o (by rw [hsplit]; exact Or.inl ho)
      obtain ⟨region, hregion, hsame, hpoints⟩ := MemoryRegionInfo.free_spec hu halloc
      rw [hoff, hregion]
      simp only
      refine (ih (s := { s with
        region := region
        process.holdingMemory := s.process.holdingMemory.subtract (memory - s.fcram)
          (addU32 (memory - s.fcram) size) }) (hsame.locked.trans hu) hlist ?_ ?_).mono ?_
      · intro x y p h1 h2 h3 h4
        exact hinj x y p (by omega) h2 (by omega) h4
      · -- a byte of a later block is not in the block that has just been freed
        rintro o ⟨x, h1, h2, hx⟩ hfree
        have hfree : o ∈ region.freePoints := hfree
        rw [hpoints, hstop, hfirst] at hfree
        rcases hfree with hfree | ⟨y, h3, h4, hy⟩
        · exact hown o ⟨x, by omega, h2, hx⟩ hfree
        · have := hinj x y _ (by omega) h2 h3 (by omega) hx hy
          omega
      · rintro s' ⟨h1, h2, h3, h4, h5, h6⟩
        refine ⟨h1, h2, h3, hsame.trans h4, ?_, ?_⟩
        · have hheld : s'.held = (s.process.holdingMemory.subtract (memory - s.fcram)
              (addU32 (memory - s.fcram) size)).points \ s.behind (a + size) e := h5
          rw [hheld, points_subtract, hstop, hfirst, hsplit]
          ext o
          simp only [Set.mem_sdiff, Set.mem_union, not_or, and_assoc]
          rfl
        · have hfree : s'.free = region.freePoints ∪ s.behind (a + size) e := h6
          rw [hfree, hpoints, hstop, hfirst, hsplit, Set.union_assoc]
          rfl
    · exact otherFault_assertion

private theorem heap_range (ht : target < 2 ^ 32) (hs : size < 2 ^ 32)
    (h : ¬ OutsideHeap target size) : target + size ≤ heapVaddrEnd := by
  unfold OutsideHeap addU32 at h
  omega

theorem heapFree_transfer (h : s.Owned) (ht : target < 2 ^ 32) (hs : size < 2 ^ 32)
    (hsafe : s.Mapped target size → ¬ OutsideHeap target size → s.Exclusive target size) :
    Outcome OtherFault (fun r => Transfer s r.2) (s.heapFree target size) := by
  unfold heapFree
  split
  · exact h.refl
  rename_i hheap
  have hle := heap_range ht hs hheap
  unfold heapVaddrEnd at hle
  split
  · exact h.refl
  apply outcome_unwrap
  intro r hr
  cases r with
  | error e => exact h.refl
  | ok blocks =>
    have hlist := VMManager.getBackingBlocksForRange_lists h.intact (by omega) hr
    have hex := hsafe (fun x hx hx' => hlist.mapped hx hx') hheap
    have hheld : ∀ o ∈ s.behind target (target + size), o ∈ s.held := by
      rintro o ⟨x, -, -, hx⟩
      obtain ⟨o', ho', heq⟩ := h.mapped x _ hx
      obtain rfl : o = o' := by omega
      exact ho'
    refine (freeBlocks_released h.unlocked (by omega) hlist (fun x y p h1 h2 _ _ => hex x y p h1 h2) ?_).bind ?_
    · exact fun o ho => h.apart o (hheld o ho)
    · rintro s₁ hrel
      apply outcome_unwrap
      rintro ⟨result, m⟩ hunmap
      simp only
      apply outcome_assert
      intro hresult
      subst hresult
      rw [hrel.vmManager] at hunmap
      obtain ⟨hm, hback⟩ := VMManager.unmapRange_backing h.intact ht hs hunmap
      refine ⟨⟨hm, hrel.region.locked.trans h.unlocked, ?_, ?_⟩, hrel.fcram, hrel.region, hrel.memoryRegion, ?_⟩
      · -- what is still mapped was mapped outside of the range, so it has not been given back
        intro x p hp
        have hp : m.backing x = some p := hp
        rw [hback x] at hp
        split at hp
        · cases hp
        · rename_i hx
          obtain ⟨o, ho, rfl⟩ := h.mapped x p hp
          refine ⟨o, ?_, by rw [← hrel.fcram]; rfl⟩
          show o ∈ s₁.held
          rw [hrel.held]
          refine ⟨ho, ?_⟩
          rintro ⟨y, h1, h2, hy⟩
          obtain rfl := hex y x _ h1 h2 hy hp
          exact hx ⟨rfl, h1, h2⟩
      · intro o ho ho'
        have ho : o ∈ s₁.held := ho
        have ho' : o ∈ s₁.free := ho'
        rw [hrel.held] at ho
        rw [hrel.free] at ho'
        rcases ho' with ho' | ho'
        · exact h.apart o ho.1 ho'
        · exact ho.2 ho'
      · intro o ho
        have ho : o ∈ s₁.held ∨ o ∈ s₁.free := ho
        rw [hrel.held, hrel.free] at ho
        rcases ho with ho | ho | ho
        · exact Or.inl ho.1
        · exact Or.inr ho
        · exact Or.inl (hheld o ho)

theorem linearFree_transfer (h : s.Owned) (ht : target < 2 ^ 32) (hs : size < 2 ^ 32)
    (hbase : s.getLinearHeapAreaAddress ≤ s.getLinearHeapBase)
    (hsafe : s.Mapped target size → ¬ s.OutsideLinearHeap target size → s.OwnsLinear target size) :
    Outcome OtherFault (fun r => Transfer s r.2) (s.linearFree target size) := by
  unfold linearFree
  split
  · exact h.refl
  rename_i hlinear
  have hnot := hlinear
  unfold OutsideLinearHeap at hnot
  simp only [not_or, Nat.not_lt] at hnot
  obtain ⟨hlow, -, hwrap⟩ := hnot
  have hlt : target + size ≤ 2 ^ 32 := by unfold addU32 at hwrap; omega
  split
  · exact h.refl
  rename_i hsize
  apply outcome_unwrap
  rintro ⟨result, m⟩ hunmap
  obtain ⟨hm, hback⟩ := VMManager.unmapRange_backing h.intact ht hs hunmap
  simp only
  split
  · refine h.setVMManager hm fun x p hp => ⟨x, ?_⟩
    rename_i hresult
    rw [hback x, if_neg fun hx => hresult hx.1] at hp
    exact hp
  · rename_i hresult
    obtain rfl := not_not.mp hresult
    have hown := hsafe (fun x h1 h2 => VMManager.unmapRange_mapped h.intact ht hs hunmap h1 h2) hlinear
    unfold freeLinear
    have harea : (s.setVMManager m).getLinearHeapAreaAddress = s.getLinearHeapAreaAddress := rfl
    have hoff : subU32 target s.getLinearHeapAreaAddress = target - s.getLinearHeapAreaAddress :=
      subU32_of_le (by omega) ht
    have hpos : 0 < s.getLinearHeapAreaAddress := by
      unfold getLinearHeapAreaAddress linearHeapVaddr newLinearHeapVaddr
      split <;> omega
    have hstop : addU32 (target - s.getLinearHeapAreaAddress) size = target - s.getLinearHeapAreaAddress + size :=
      addU32_of_lt (by omega)
    simp only [harea, hoff, hstop]
    -- the offsets that are given back are held
    have hgive : ∀ o ∈ between (target - s.getLinearHeapAreaAddress) (target - s.getLinearHeapAreaAddress + size),
        o ∈ s.held ∧ ∀ y, s.backing y = some (s.fcram + o) → target ≤ y ∧ y < target + size := by
      intro o ho
      have ho := mem_between.mp ho
      have := hown (o + s.getLinearHeapAreaAddress) (by omega) (by omega)
      rw [Nat.add_sub_cancel] at this
      exact this
    have halloc : ∀ o ∈ between (target - s.getLinearHeapAreaAddress)
        (addU32 (target - s.getLinearHeapAreaAddress) size), o ∉ s.region.freePoints := by
      intro o ho
      rw [hstop] at ho
      exact h.apart o (hgive o ho).1
    obtain ⟨region, hregion, hsame, hpoints⟩ := MemoryRegionInfo.free_spec h.unlocked halloc
    have hregion : (s.setVMManager m).region.free (target - s.getLinearHeapAreaAddress) size = .ok region := hregion
    rw [hregion]
    rw [hstop] at hpoints
    refine ⟨⟨hm, hsame.locked.trans h.unlocked, ?_, ?_⟩, rfl, hsame, rfl, ?_⟩
    · intro x p hp
      have hp : m.backing x = some p := hp
      rw [hback x] at hp
      split at hp
      · cases hp
      · rename_i hx
        obtain ⟨o, ho, rfl⟩ := h.mapped x p hp
        refine ⟨o, ?_, rfl⟩
        show o ∈ (s.process.holdingMemory.subtract _ _).points
        rw [points_subtract]
        exact ⟨ho, fun ho' => hx ⟨rfl, (hgive o ho').2 x hp⟩⟩
    · intro o ho ho'
      have ho : o ∈ (s.process.holdingMemory.subtract _ _).points := ho
      have ho' : o ∈ region.freePoints := ho'
      rw [points_subtract] at ho
      rw [hpoints] at ho'
      rcases ho' with ho' | ho'
      · exact h.apart o ho.1 ho'
      · exact ho.2 ho'
    · intro o ho
      have ho : o ∈ (s.process.holdingMemory.subtract _ _).points ∨ o ∈ region.freePoints := ho
      rw [points_subtract, hpoints] at ho
      rcases ho with ho | ho | ho
      · exact Or.inl ho.1
      · exact Or.inr ho
      · exact Or.inl (hgive o ho).1

private theorem changeMemoryState_transfer (h : s.Owned) (ht : target < 2 ^ 32) (hs : size < 2 ^ 32)
    (es ns : MemoryState) (ep np : VMAPermission) :
    Outcome OtherFault (fun r => Transfer s r.2) (s.changeMemoryState target size es ep ns np) := by
  apply outcome_unwrap
  rintro ⟨result, m⟩ hchange
  obtain ⟨hm, hback⟩ := VMManager.changeMemoryState_backing h.intact ht hs hchange
  refine h.setVMManager hm fun x p hp => ⟨x, ?_⟩
  rw [hback x] at hp
  exact hp

theorem Transfer.trans {s'' : ProcessMemory} (h : Transfer s s') (h' : Transfer s' s'') : Transfer s s'' where
  owned := h'.owned
  fcram := h'.fcram.trans h.fcram
  region := h.region.trans h'.region
  memoryRegion := h'.memoryRegion.trans h.memoryRegion
  conserved o ho := h.conserved o (h'.conserved o ho)

private theorem mapAlias_transfer (h : s.Owned) {target source size : Nat} (ht : target < 2 ^ 32)
    (hs : source + size < 2 ^ 32) (targetState : MemoryState) (perms : VMAPermission) :
    Outcome OtherFault (fun r => Transfer s r.2) (s.mapAlias target source size targetState perms) := by
  apply outcome_unwrap
  intro r hr
  cases r with
  | error e => exact h.refl
  | ok blocks =>
    have hlist := VMManager.getBackingBlocksForRange_lists h.intact hs hr
    refine (VMManager.mapBlocks_spec h.intact targetState perms blocks ht ?_).bind ?_
    · exact fun b hb => Nat.lt_of_le_of_lt (hlist.size_le hb) (by omega)
    · intro m hm
      refine h.setVMManager hm.1 fun x p hp => ?_
      rcases hm.2 x p hp with hp | ⟨b, hb, i, hi, rfl⟩
      · exact ⟨x, hp⟩
      · obtain ⟨y, -, -, hy⟩ := hlist.mem hb hi
        exact ⟨y, hy⟩

theorem map_transfer (h : s.Owned) {target source size : Nat} (ht : target < 2 ^ 32) (hsource : source < 2 ^ 32)
    (hs : size < 2 ^ 32) (perms : VMAPermission) :
    Outcome OtherFault (fun r => Transfer s r.2) (s.map target source size perms false) := by
  unfold map
  split
  · exact h.refl
  rename_i hheap
  simp only [Bool.false_eq_true, not_false_eq_true, true_and] at hheap
  have hle := heap_range hsource hs hheap
  unfold heapVaddrEnd at hle
  split
  · exact h.refl
  refine Outcome.bind (P := fun _ => True) ?_ ?_
  · exact outcome_unwrap fun _ _ => trivial
  intro occupied _
  cases occupied with
  | true => exact h.refl
  | false =>
    refine (changeMemoryState_transfer h hsource hs _ _ _ _).bind ?_
    rintro ⟨result, s₁⟩ h₁
    simp only
    split
    · exact h₁
    · exact (mapAlias_transfer h₁.owned ht (by omega) _ _).mono fun r hr => h₁.trans hr

theorem unmap_transfer (h : s.Owned) {target source size : Nat} (ht : target < 2 ^ 32) (hsource : source < 2 ^ 32)
    (hs : size < 2 ^ 32) (perms : VMAPermission) :
    Outcome OtherFault (fun r => Transfer s r.2) (s.unmap target source size perms false) := by
  unfold unmap
  split
  · exact h.refl
  split
  · exact h.refl
  apply outcome_unwrap
  rintro ⟨result, m⟩ hunmap
  obtain ⟨hm, hback⟩ := VMManager.unmapRange_backing h.intact ht hs hunmap
  have h₁ : Transfer s (s.setVMManager m) := by
    refine h.setVMManager hm fun x p hp => ⟨x, ?_⟩
    rw [hback x] at hp
    split at hp
    · cases hp
    · exact hp
  simp only
  split
  · exact h₁
  · exact (changeMemoryState_transfer h₁.owned hsource hs _ _ _ _).mono fun r hr => h₁.trans hr

theorem reprotectRange_transfer (h : s.Owned) (ht : target < 2 ^ 32) (hs : size < 2 ^ 32)
    (perms : VMAPermission) : Outcome OtherFault (fun r => Transfer s r.2) (s.reprotectRange target size perms) := by
  apply outcome_unwrap
  rintro ⟨result, m⟩ hchange
  obtain ⟨hm, hback⟩ := VMManager.reprotectRange_backing h.intact ht hs hchange
  refine h.setVMManager hm fun x p hp => ⟨x, ?_⟩
  rw [hback x] at hp
  exact hp

/-- Every `svcControlMemory` moves FCRAM between the process and its region, if what it frees is safe to release. -/
theorem controlMemory_transfer (h : s.Owned) (hbase : s.getLinearHeapAreaAddress ≤ s.getLinearHeapBase)
    (a : ControlMemoryArgs)
    (hsafe : a.check = none → a.decode = some .free → s.ReleaseSafe a.addr0.toNat a.size.toNat) :
    Outcome OtherFault (fun r => Transfer s r.2.2) (s.controlMemory a) := by
  have h0 := a.addr0.toNat_lt
  have h1 := a.addr1.toNat_lt
  have h2 := a.size.toNat_lt
  unfold controlMemory
  split
  · exact h.refl
  rename_i hcheck
  split
  · exact h.refl
  rename_i op hop
  cases op with
  | free =>
    have hsafe := hsafe hcheck hop
    unfold ReleaseSafe at hsafe
    have hfree : Outcome OtherFault (fun r => Transfer s r.2) (s.controlMemoryFree a.addr0.toNat a.size.toNat) := by
      unfold controlMemoryFree
      split
      · rename_i hheap
        simp only [if_pos hheap] at hsafe
        exact heapFree_transfer h h0 h2 hsafe
      · rename_i hheap
        simp only [if_neg hheap] at hsafe
        split
        · exact linearFree_transfer h h0 h2 hbase hsafe
        · exact h.refl
    exact hfree.bind fun _ hr => hr
  | commit linear =>
    cases linear with
    | true =>
      refine (linearAllocate_transfer h h0 h2 _).bind ?_
      rintro ⟨r, s'⟩ hr
      cases r <;> exact hr
    | false =>
      refine (heapAllocate_transfer h h0 _ _ _).bind ?_
      rintro ⟨r, s'⟩ hr
      cases r <;> exact hr
  | map => exact (map_transfer h h0 h1 h2 _).bind fun r hr => hr
  | unmap => exact (unmap_transfer h h0 h1 h2 _).bind fun r hr => hr
  | protect => exact (reprotectRange_transfer h h0 h2 _).bind fun r hr => hr

end ProcessMemory

end SweepDSEmu
