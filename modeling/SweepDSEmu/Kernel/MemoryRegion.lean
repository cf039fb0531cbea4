import SweepDSEmu.Kernel.VMManager
import SweepDSEmu.Lib.IntervalSet

/-!
# The FCRAM allocator

The functions of `MemoryRegionInfo`.  An offset counts from the start of FCRAM; `freeBlocks` holds the offsets that are
not allocated.  An allocation only takes free offsets, and it takes exactly what it returns.
-/

namespace SweepDSEmu

inductive Fault where
  /-- The assertion of `MemoryRegionInfo::Free`. -/
  | mustBeAllocated
  /-- Another assertion. -/
  | assertion
  deriving DecidableEq

def assert (cond : Prop) [Decidable cond] : Except Fault Unit := if cond then .ok () else .error .assertion

/-- A call whose assertions are modelled by `none`. -/
def unwrap {α : Type} : Option α → Except Fault α
  | some a => .ok a
  | none => .error .assertion

def subU32 (a b : Nat) : Nat := (a + 2 ^ 32 - b) % 2 ^ 32

theorem addU32_lt (a b : Nat) : addU32 a b < 2 ^ 32 := Nat.mod_lt _ (by decide)

theorem subU32_lt (a b : Nat) : subU32 a b < 2 ^ 32 := Nat.mod_lt _ (by decide)

theorem addU32_of_lt {a b : Nat} (h : a + b < 2 ^ 32) : addU32 a b = a + b := Nat.mod_eq_of_lt h

theorem subU32_of_le {a b : Nat} (h : b ≤ a) (ha : a < 2 ^ 32) : subU32 a b = a - b := by
  unfold subU32
  omega

structure MemoryRegionInfo where
  base : Nat
  size : Nat
  used : Nat
  freeBlocks : IntervalSet
  isLocked : Bool := false
  deriving DecidableEq

namespace MemoryRegionInfo

def reset (base size : Nat) : MemoryRegionInfo where
  base := base
  size := size
  used := 0
  freeBlocks := IntervalSet.add [] base (addU32 base size)

/-- The loop of `HeapAllocate`, from the last block to the first: the blocks taken and the size that is missing. -/
def heapAllocateLoop : IntervalSet → IntervalSet → Nat → IntervalSet × Nat
  | [], result, rest => (result, rest)
  | (lower, upper) :: blocks, result, rest =>
    if upper - lower ≥ rest then (result.add (upper - rest) upper, 0)
    else heapAllocateLoop blocks (result.add lower upper) (rest - (upper - lower))

def heapAllocate (r : MemoryRegionInfo) (size : Nat) : Except Fault (IntervalSet × MemoryRegionInfo) := do
  assert (r.isLocked = false)
  let (result, rest) := heapAllocateLoop r.freeBlocks.reverse [] size
  if rest ≠ 0 then return ([], r)
  else return (result, { r with freeBlocks := r.freeBlocks.difference result, used := addU32 r.used size })

def linearAllocateAt (r : MemoryRegionInfo) (offset size : Nat) : Except Fault (Bool × MemoryRegionInfo) := do
  assert (r.isLocked = false)
  let stop := addU32 offset size
  if r.freeBlocks.contains offset stop then
    return (true, { r with freeBlocks := r.freeBlocks.subtract offset stop, used := addU32 r.used size })
  else return (false, r)

def linearAllocate (r : MemoryRegionInfo) (size : Nat) : Except Fault (Option Nat × MemoryRegionInfo) := do
  assert (r.isLocked = false)
  match r.freeBlocks.find? fun p => p.2 - p.1 ≥ size with
  | none => return (none, r)
  | some (lower, _) => return (some lower, { r with
      freeBlocks := r.freeBlocks.subtract lower (addU32 lower size)
      used := addU32 r.used size })

def rLinearAllocate (r : MemoryRegionInfo) (size : Nat) : Except Fault (Option Nat × MemoryRegionInfo) := do
  assert (r.isLocked = false)
  match r.freeBlocks.reverse.find? fun p => p.2 - p.1 ≥ size with
  | none => return (none, r)
  | some (_, upper) => return (some (upper - size), { r with
      freeBlocks := r.freeBlocks.subtract (upper - size) upper
      used := addU32 r.used size })

def free (r : MemoryRegionInfo) (offset size : Nat) : Except Fault MemoryRegionInfo :=
  if r.isLocked then .ok r else
  let stop := addU32 offset size
  if r.freeBlocks.intersects offset stop then .error .mustBeAllocated
  else .ok { r with freeBlocks := r.freeBlocks.add offset stop, used := subU32 r.used size }

def freePoints (r : MemoryRegionInfo) : Set Nat := r.freeBlocks.points

open IntervalSet

variable {r r' : MemoryRegionInfo}

/-- A region changed only in its free offsets. -/
structure SameRegion (r r' : MemoryRegionInfo) : Prop where
  locked : r'.isLocked = r.isLocked
  base : r'.base = r.base
  size : r'.size = r.size

theorem SameRegion.refl (r : MemoryRegionInfo) : SameRegion r r := ⟨rfl, rfl, rfl⟩

theorem SameRegion.trans {r'' : MemoryRegionInfo} (h : SameRegion r r') (h' : SameRegion r' r'') :
    SameRegion r r'' := ⟨h'.locked.trans h.locked, h'.base.trans h.base, h'.size.trans h.size⟩

theorem heapAllocateLoop_points (blocks result : IntervalSet) (rest : Nat) :
    (heapAllocateLoop blocks result rest).1.points ⊆ result.points ∪ blocks.points := by
  induction blocks generalizing result rest with
  | nil => exact fun x hx => Or.inl hx
  | cons p blocks ih =>
    obtain ⟨lower, upper⟩ := p
    rw [points_cons]
    unfold heapAllocateLoop
    split
    · rename_i hrest
      rw [points_add]
      rintro x (hx | hx)
      · exact Or.inl hx
      · have hx := mem_between.mp hx
        exact Or.inr (Or.inl (mem_between.mpr ⟨by simp only; omega, by simp only; omega⟩))
    · intro x hx
      have hx := ih _ _ hx
      rw [points_add] at hx
      rcases hx with (hx | hx) | hx
      · exact Or.inl hx
      · exact Or.inr (Or.inl hx)
      · exact Or.inr (Or.inr hx)

private theorem heapAllocateLoop_nonempty (blocks result : IntervalSet) (rest : Nat) (h : ∀ p ∈ result, p.1 < p.2) :
    ∀ p ∈ (heapAllocateLoop blocks result rest).1, p.1 < p.2 := by
  induction blocks generalizing result rest with
  | nil => exact h
  | cons p blocks ih =>
    unfold heapAllocateLoop
    split
    · exact add_nonempty h _ _
    · exact ih _ _ (add_nonempty h _ _)

private theorem points_reverse (s : IntervalSet) : IntervalSet.points s.reverse = s.points := by
  ext x
  simp [mem_points]

theorem heapAllocate_spec (hl : r.isLocked = false) (size : Nat) :
    ∃ result r', r.heapAllocate size = .ok (result, r') ∧ SameRegion r r' ∧ result.points ⊆ r.freePoints ∧
      r'.freePoints = r.freePoints \ result.points ∧ ∀ p ∈ result, p.1 < p.2 := by
  unfold heapAllocate assert
  rw [if_pos hl]
  simp only [bind, Except.bind, pure, Except.pure]
  split
  · refine ⟨[], r, rfl, SameRegion.refl r, ?_, ?_, fun p hp => absurd hp List.not_mem_nil⟩
    · rw [points_nil]
      exact Set.empty_subset _
    · ext x
      simp
  · refine ⟨_, _, rfl, ⟨rfl, rfl, rfl⟩, ?_, points_difference _ _, ?_⟩
    · intro x hx
      rcases heapAllocateLoop_points _ _ _ hx with hx | hx
      · exact absurd hx (by simp)
      · rw [points_reverse] at hx
        exact hx
    · exact heapAllocateLoop_nonempty _ _ _ fun p hp => absurd hp List.not_mem_nil

theorem linearAllocateAt_spec (hl : r.isLocked = false) (offset size : Nat) :
    ∃ b r', r.linearAllocateAt offset size = .ok (b, r') ∧ SameRegion r r' ∧
      if b then between offset (addU32 offset size) ⊆ r.freePoints ∧
        r'.freePoints = r.freePoints \ between offset (addU32 offset size)
      else r' = r := by
  unfold linearAllocateAt assert
  rw [if_pos hl]
  simp only [bind, Except.bind, pure, Except.pure]
  split
  · rename_i hc
    exact ⟨true, _, rfl, ⟨rfl, rfl, rfl⟩, subset_of_contains hc, points_subtract _ _ _⟩
  · exact ⟨false, r, rfl, SameRegion.refl r, rfl⟩

theorem linearAllocate_spec (hl : r.isLocked = false) (size : Nat) :
    ∃ o r', r.linearAllocate size = .ok (o, r') ∧ SameRegion r r' ∧ match o with
      | some offset => between offset (addU32 offset size) ⊆ r.freePoints ∧
        r'.freePoints = r.freePoints \ between offset (addU32 offset size)
      | none => r' = r := by
  unfold linearAllocate assert
  rw [if_pos hl]
  split
  · exact ⟨none, r, rfl, SameRegion.refl r, rfl⟩
  · rename_i lower upper hfind
    refine ⟨some lower, _, rfl, ⟨rfl, rfl, rfl⟩, ?_, points_subtract _ _ _⟩
    have hlarge := List.find?_some hfind
    simp only [ge_iff_le, decide_eq_true_eq] at hlarge
    intro x hx
    have hx := mem_between.mp hx
    have hle : addU32 lower size ≤ lower + size := Nat.mod_le _ _
    exact ⟨(lower, upper), List.mem_of_find?_eq_some hfind, hx.1, by simp only; omega⟩

theorem free_spec {offset size : Nat} (hl : r.isLocked = false)
    (halloc : ∀ x ∈ between offset (addU32 offset size), x ∉ r.freePoints) :
    ∃ r', r.free offset size = .ok r' ∧ SameRegion r r' ∧
      r'.freePoints = r.freePoints ∪ between offset (addU32 offset size) := by
  refine ⟨{ r with
    freeBlocks := r.freeBlocks.add offset (addU32 offset size)
    used := subU32 r.used size }, ?_, ⟨rfl, rfl, rfl⟩, points_add _ _ _⟩
  unfold free
  simp only [hl, Bool.false_eq_true, if_false, intersects_eq_false halloc]

end MemoryRegionInfo

end SweepDSEmu
