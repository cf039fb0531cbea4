import SweepDSEmu.Kernel.MemoryRegion

/-!
# Runs of the FCRAM allocator

A ledger of the blocks that have been returned and not yet freed accompanies the allocator.  In every run free and
outstanding blocks share no offset, and `used` counts what is not free.

The end of a range is a 32-bit sum.  `Reset` and `LinearAllocate` at an offset do not check it: a range that wraps is
an empty interval for them, and every set contains the empty interval.
-/

namespace SweepDSEmu

open IntervalSet

namespace MemoryRegionInfo

inductive Call where
  | heapAllocate (size : Nat)
  | linearAllocate (size : Nat)
  | rLinearAllocate (size : Nat)
  | linearAllocateAt (offset size : Nat)
  /-- `Free` of one of the blocks that are outstanding, by its number. -/
  | free (number : Nat)
  deriving DecidableEq

def Call.NoWrap : Call → Prop
  | .linearAllocateAt offset size => offset + size < 2 ^ 32
  | _ => True

instance : DecidablePred Call.NoWrap
  | .linearAllocateAt .. => inferInstanceAs (Decidable (_ < _))
  | .heapAllocate .. => inferInstanceAs (Decidable True)
  | .linearAllocate .. => inferInstanceAs (Decidable True)
  | .rLinearAllocate .. => inferInstanceAs (Decidable True)
  | .free .. => inferInstanceAs (Decidable True)

/-- An allocator with the blocks that have been returned and not yet freed. -/
structure Ledger where
  region : MemoryRegionInfo
  outstanding : IntervalSet := []
  deriving DecidableEq

namespace Ledger

/-- Records an answer of `LinearAllocate` or `RLinearAllocate`. -/
def grant (s : Ledger) (size : Nat) (answer : Option Nat × MemoryRegionInfo) : Ledger :=
  match answer with
  | (none, r) => { s with region := r }
  | (some offset, r) => ⟨r, (offset, addU32 offset size) :: s.outstanding⟩

def exec (s : Ledger) : Call → Except Fault Ledger
  | .heapAllocate size => do
    let (blocks, r) ← s.region.heapAllocate size
    return ⟨r, blocks ++ s.outstanding⟩
  | .linearAllocate size => do
    let answer ← s.region.linearAllocate size
    return s.grant size answer
  | .rLinearAllocate size => do
    let answer ← s.region.rLinearAllocate size
    return s.grant size answer
  | .linearAllocateAt offset size => do
    let (allocated, r) ← s.region.linearAllocateAt offset size
    return s.grant size (if allocated then some offset else none, r)
  | .free number =>
    match s.outstanding[number]? with
    | none => .ok s
    | some (lower, upper) => do
      let r ← s.region.free lower (subU32 upper lower)
      return ⟨r, s.outstanding.eraseIdx number⟩

def run (s : Ledger) (calls : List Call) : Except Fault Ledger := calls.foldlM exec s

end Ledger

variable {r r' : MemoryRegionInfo}

/-- The allocator gives away blocks. -/
structure Takes (r : MemoryRegionInfo) (blocks : IntervalSet) (size : Nat) (r' : MemoryRegionInfo) : Prop where
  same : SameRegion r r'
  used : r'.used = addU32 r.used size
  free : blocks.points ⊆ r.freePoints
  rest : r'.freePoints = r.freePoints \ blocks.points
  normal : r'.freeBlocks.Normal
  total : blocks.total = size

theorem takes_single (hn : r.freeBlocks.Normal) (lower size : Nat)
    (hfree : between lower (lower + size) ⊆ r.freePoints) :
    Takes r [(lower, lower + size)] size { r with
      freeBlocks := r.freeBlocks.subtract lower (lower + size)
      used := addU32 r.used size } where
  same := ⟨rfl, rfl, rfl⟩
  used := rfl
  free := by
    rw [points_singleton]
    exact hfree
  rest := by
    rw [points_singleton]
    exact points_subtract _ _ _
  normal := hn.subtract _ _
  total := by simp [IntervalSet.total]

private theorem heapAllocateLoop_total (blocks result : IntervalSet) (rest : Nat)
    (hgaps : blocks.Pairwise fun p q => q.2 < p.1) (hne : ∀ p ∈ blocks, p.1 < p.2) (hresult : result.Normal)
    (hdisjoint : Disjoint blocks.points result.points) :
    (heapAllocateLoop blocks result rest).1.Normal ∧
      (heapAllocateLoop blocks result rest).1.points.ncard + (heapAllocateLoop blocks result rest).2 =
        result.points.ncard + rest ∧
      (heapAllocateLoop blocks result rest).2 = rest - blocks.total := by
  induction blocks generalizing result rest with
  | nil => exact ⟨hresult, rfl, by simp [heapAllocateLoop, IntervalSet.total]⟩
  | cons p blocks ih =>
    obtain ⟨lower, upper⟩ := p
    rw [List.pairwise_cons] at hgaps
    have hlower : lower < upper := hne _ List.mem_cons_self
    rw [points_cons, Set.disjoint_union_left] at hdisjoint
    have htotal : IntervalSet.total ((lower, upper) :: blocks) = (upper - lower) + IntervalSet.total blocks := by
      simp [IntervalSet.total]
    have hcard : ∀ l, lower ≤ l →
        (result.add l upper).points.ncard = result.points.ncard + (upper - l) := by
      intro l hl
      have hd : Disjoint result.points (between l upper) := by
        refine (hdisjoint.1.mono_left ?_).symm
        intro x hx
        exact ⟨Nat.le_trans hl hx.1, hx.2⟩
      rw [points_add, Set.ncard_union_eq hd (finite_points _) (Set.finite_Ico _ _), ncard_between]
    unfold heapAllocateLoop
    split
    · rename_i hle
      refine ⟨hresult.add _ _, ?_, ?_⟩
      · have := hcard (upper - rest) (by omega)
        simp only
        omega
      · simp only
        omega
    · rename_i hlt
      have hcard := hcard lower le_rfl
      have hd : Disjoint (points blocks) (result.add lower upper).points := by
        rw [points_add, Set.disjoint_union_right]
        refine ⟨hdisjoint.2, Set.disjoint_left.mpr ?_⟩
        rintro x ⟨q, hq, -, hx⟩ ⟨hx', -⟩
        have hgap : q.2 < lower := hgaps.1 q hq
        omega
      obtain ⟨h1, h2, h3⟩ := ih (result.add lower upper) (rest - (upper - lower)) hgaps.2
        (fun p hp => hne p (List.mem_cons_of_mem _ hp)) (hresult.add _ _) hd
      refine ⟨h1, ?_, ?_⟩
      · omega
      · omega

private theorem total_reverse (s : IntervalSet) : IntervalSet.total s.reverse = s.total := by
  simp [IntervalSet.total, List.sum_reverse]

private theorem mem_points_reverse (s : IntervalSet) (x : Nat) : x ∈ IntervalSet.points s.reverse ↔ x ∈ s.points := by
  simp [mem_points]

/-- `HeapAllocate` fails exactly when there is not enough free memory. -/
theorem heapAllocate_takes (hl : r.isLocked = false) (hn : r.freeBlocks.Normal) (hused : r.used < 2 ^ 32) (size : Nat) :
    (r.freeBlocks.total < size ∧ r.heapAllocate size = .ok ([], r)) ∨
      (size ≤ r.freeBlocks.total ∧ ∃ blocks r', r.heapAllocate size = .ok (blocks, r') ∧ blocks.Normal ∧
        Takes r blocks size r' ∧ (blocks = [] → r' = r)) := by
  have hgaps : r.freeBlocks.reverse.Pairwise fun p q => q.2 < p.1 := List.pairwise_reverse.mpr hn.gaps
  obtain ⟨h1, h2, h3⟩ := heapAllocateLoop_total r.freeBlocks.reverse [] size hgaps
    (fun p hp => hn.nonempty p (List.mem_reverse.mp hp)) normal_nil (by simp)
  have hsub : (heapAllocateLoop r.freeBlocks.reverse [] size).1.points ⊆ r.freePoints := by
    intro x hx
    rcases heapAllocateLoop_points _ _ _ hx with hx | hx
    · exact absurd hx (by simp)
    · exact (mem_points_reverse _ x).mp hx
  rw [total_reverse] at h3
  unfold heapAllocate assert
  rw [if_pos hl]
  simp only [bind, Except.bind, pure, Except.pure]
  by_cases henough : size ≤ r.freeBlocks.total
  · refine Or.inr ⟨henough, ?_⟩
    have hrest : (heapAllocateLoop r.freeBlocks.reverse [] size).2 = 0 := by omega
    rw [if_neg (not_not.mpr hrest)]
    have htotal : (heapAllocateLoop r.freeBlocks.reverse [] size).1.total = size := by
      rw [hrest, points_nil, Set.ncard_empty] at h2
      rw [h1.total_eq]
      omega
    refine ⟨_, _, rfl, h1, ⟨⟨rfl, rfl, rfl⟩, rfl, hsub, points_difference _ _, hn.difference _, htotal⟩, ?_⟩
    intro hnil
    have hzero : size = 0 := by
      rw [hnil] at htotal
      exact htotal.symm
    have hsame : addU32 r.used size = r.used := by
      rw [hzero]
      exact addU32_of_lt hused
    rw [hnil, hsame]
    rfl
  · have hrest : (heapAllocateLoop r.freeBlocks.reverse [] size).2 ≠ 0 := by omega
    rw [if_pos hrest]
    exact Or.inl ⟨Nat.not_le.mp henough, rfl⟩

theorem linearAllocate_takes (hl : r.isLocked = false) (hn : r.freeBlocks.Normal)
    (hsmall : ∀ p ∈ r.freeBlocks, p.2 < 2 ^ 32) (size : Nat) :
    ((∀ p ∈ r.freeBlocks, p.2 - p.1 < size) ∧ r.linearAllocate size = .ok (none, r)) ∨
      ∃ lower upper r', (lower, upper) ∈ r.freeBlocks ∧ size ≤ upper - lower ∧
        (∀ p ∈ r.freeBlocks, size ≤ p.2 - p.1 → lower ≤ p.1) ∧ addU32 lower size = lower + size ∧
        r.linearAllocate size = .ok (some lower, r') ∧ Takes r [(lower, lower + size)] size r' := by
  unfold linearAllocate assert
  rw [if_pos hl]
  cases hfind : r.freeBlocks.find? fun p => p.2 - p.1 ≥ size with
  | none =>
    refine Or.inl ⟨?_, rfl⟩
    intro p hp
    have hno := List.find?_eq_none.mp hfind p hp
    simpa using hno
  | some p =>
    obtain ⟨lower, upper⟩ := p
    obtain ⟨hlarge, before, after, hsplit, hbefore⟩ := List.find?_eq_some_iff_append.mp hfind
    have hlarge : size ≤ upper - lower := by simpa using hlarge
    have hmem : (lower, upper) ∈ r.freeBlocks := List.mem_of_find?_eq_some hfind
    have hne : lower < upper := hn.nonempty _ hmem
    have hupper : upper < 2 ^ 32 := hsmall _ hmem
    have hadd : addU32 lower size = lower + size := addU32_of_lt (by omega)
    refine Or.inr ⟨lower, upper, _, hmem, hlarge, ?_, hadd, rfl, ?_⟩
    · intro p hp hpsize
      rw [hsplit] at hp
      rcases List.mem_append.mp hp with hp | hp
      · have hno := hbefore p hp
        simp only [ge_iff_le, Bool.not_eq_true', decide_eq_false_iff_not] at hno
        omega
      · rcases List.mem_cons.mp hp with rfl | hp
        · exact le_rfl
        · have hgaps := hn.gaps
          rw [hsplit] at hgaps
          have hgap := (List.pairwise_cons.mp (List.pairwise_append.mp hgaps).2.1).1 p hp
          simp only at hgap
          omega
    · rw [hadd]
      refine takes_single hn _ _ ?_
      rintro x ⟨hx, hx'⟩
      exact ⟨(lower, upper), hmem, hx, by simp only; omega⟩

/-- `RLinearAllocate` takes the end of a block that is large enough. -/
theorem rLinearAllocate_takes (hl : r.isLocked = false) (hn : r.freeBlocks.Normal)
    (hsmall : ∀ p ∈ r.freeBlocks, p.2 < 2 ^ 32) (size : Nat) :
    ((∀ p ∈ r.freeBlocks, p.2 - p.1 < size) ∧ r.rLinearAllocate size = .ok (none, r)) ∨
      ∃ lower r', addU32 lower size = lower + size ∧ r.rLinearAllocate size = .ok (some lower, r') ∧
        Takes r [(lower, lower + size)] size r' := by
  unfold rLinearAllocate assert
  rw [if_pos hl]
  cases hfind : r.freeBlocks.reverse.find? fun p => p.2 - p.1 ≥ size with
  | none =>
    refine Or.inl ⟨?_, rfl⟩
    intro p hp
    have hno := List.find?_eq_none.mp hfind p (List.mem_reverse.mpr hp)
    simpa using hno
  | some p =>
    obtain ⟨lower, upper⟩ := p
    have hlarge : size ≤ upper - lower := by simpa using List.find?_some hfind
    have hmem : (lower, upper) ∈ r.freeBlocks := List.mem_reverse.mp (List.mem_of_find?_eq_some hfind)
    have hne : lower < upper := hn.nonempty _ hmem
    have hupper : upper < 2 ^ 32 := hsmall _ hmem
    have hback : upper - size + size = upper := by omega
    refine Or.inr ⟨upper - size, _, ?_, rfl, ?_⟩
    · rw [addU32, hback]
      exact Nat.mod_eq_of_lt hupper
    · have htakes := takes_single hn (upper - size) size ?_
      · rw [hback] at htakes ⊢
        exact htakes
      · rintro x ⟨hx, hx'⟩
        exact ⟨(lower, upper), hmem, by simp only; omega, by simp only; omega⟩

theorem linearAllocateAt_takes (hl : r.isLocked = false) (hn : r.freeBlocks.Normal) {offset size : Nat}
    (hwrap : offset + size < 2 ^ 32) :
    r.linearAllocateAt offset size = .ok (false, r) ∨
      ∃ r', r.linearAllocateAt offset size = .ok (true, r') ∧ Takes r [(offset, offset + size)] size r' := by
  have hadd := addU32_of_lt hwrap
  unfold linearAllocateAt assert
  rw [if_pos hl, hadd]
  simp only [bind, Except.bind, pure, Except.pure]
  split
  · rename_i hc
    exact Or.inr ⟨_, rfl, takes_single hn _ _ (subset_of_contains hc)⟩
  · exact Or.inl rfl

structure GetsBack (r : MemoryRegionInfo) (lower upper : Nat) (r' : MemoryRegionInfo) : Prop where
  same : SameRegion r r'
  used : r'.used = subU32 r.used (upper - lower)
  free : r'.freePoints = r.freePoints ∪ between lower upper
  normal : r'.freeBlocks.Normal

theorem free_getsBack (hl : r.isLocked = false) (hn : r.freeBlocks.Normal) {lower upper : Nat} (hle : lower ≤ upper)
    (hupper : upper < 2 ^ 32) (halloc : Disjoint r.freePoints (between lower upper)) :
    ∃ r', r.free lower (upper - lower) = .ok r' ∧ GetsBack r lower upper r' := by
  have hstop : addU32 lower (upper - lower) = upper := by
    rw [addU32_of_lt (by omega)]
    omega
  have hno : r.freeBlocks.intersects lower upper = false :=
    intersects_eq_false fun x hx hx' => Set.disjoint_left.mp halloc hx' hx
  refine ⟨{ r with
    freeBlocks := r.freeBlocks.add lower upper
    used := subU32 r.used (upper - lower) }, ?_, ⟨rfl, rfl, rfl⟩, rfl, points_add _ _ _, hn.add _ _⟩
  unfold free
  simp only [hl, Bool.false_eq_true, if_false, hstop, hno]

namespace Ledger

variable {base size : Nat} {s : Ledger}

/-- Free and outstanding blocks are disjoint parts of the region, and `used` counts what is not free. -/
structure Ok (base size : Nat) (s : Ledger) : Prop where
  unlocked : s.region.isLocked = false
  base_eq : s.region.base = base
  size_eq : s.region.size = size
  fits : base + size < 2 ^ 32
  normal : s.region.freeBlocks.Normal
  used : s.region.used + s.region.freeBlocks.total = size
  free_sub : s.region.freePoints ⊆ between base (base + size)
  out_sub : s.outstanding.points ⊆ between base (base + size)
  disjoint : Disjoint s.region.freePoints s.outstanding.points
  apart : s.outstanding.Pairwise fun p q => Disjoint (between p.1 p.2) (between q.1 q.2)
  small : ∀ p ∈ s.outstanding, p.1 ≤ p.2 ∧ p.2 < 2 ^ 32

private theorem Ok.freeBlock_small (h : Ok base size s) : ∀ p ∈ s.region.freeBlocks, p.2 < 2 ^ 32 := by
  rintro ⟨lower, upper⟩ hp
  have hfits := h.fits
  have hne : lower < upper := h.normal.nonempty _ hp
  have hlast : upper - 1 ∈ s.region.freePoints :=
    mem_points.mpr ⟨_, hp, Nat.le_sub_one_of_lt hne, Nat.sub_one_lt (by omega)⟩
  have hin := (h.free_sub hlast).2
  show upper < 2 ^ 32
  omega

private theorem Ok.used_lt (h : Ok base size s) : s.region.used < 2 ^ 32 := by
  have hused := h.used
  have hfits := h.fits
  omega

private theorem ok_start (h : base + size < 2 ^ 32) : Ok base size ⟨reset base size, []⟩ := by
  have hadd := addU32_of_lt h
  have hpoints : (reset base size).freePoints = between base (base + size) := by
    unfold freePoints reset
    rw [points_add, hadd]
    simp
  have hnormal : (reset base size).freeBlocks.Normal := normal_nil.add _ _
  refine ⟨rfl, rfl, rfl, h, hnormal, ?_, hpoints.le, by simp, by simp, List.Pairwise.nil, by simp⟩
  show 0 + (reset base size).freeBlocks.total = size
  rw [hnormal.total_eq]
  show 0 + (reset base size).freePoints.ncard = size
  rw [hpoints, ncard_between]
  omega

private theorem points_append (s t : IntervalSet) : points (s ++ t) = s.points ∪ t.points := by
  ext x
  simp only [mem_points, List.mem_append, Set.mem_union]
  constructor
  · rintro ⟨p, hp | hp, hx⟩
    · exact Or.inl ⟨p, hp, hx⟩
    · exact Or.inr ⟨p, hp, hx⟩
  · rintro (⟨p, hp, hx⟩ | ⟨p, hp, hx⟩)
    · exact ⟨p, Or.inl hp, hx⟩
    · exact ⟨p, Or.inr hp, hx⟩

private theorem Ok.takes (h : Ok base size s) {blocks : IntervalSet} {n : Nat} {r' : MemoryRegionInfo}
    (ht : Takes s.region blocks n r') (hcard : blocks.points.ncard = n)
    (hapart : blocks.Pairwise fun p q => Disjoint (between p.1 p.2) (between q.1 q.2))
    (hsmall : ∀ p ∈ blocks, p.1 ≤ p.2 ∧ p.2 < 2 ^ 32) : Ok base size ⟨r', blocks ++ s.outstanding⟩ := by
  have hfits := h.fits
  have hblocks : Disjoint blocks.points s.outstanding.points := h.disjoint.mono_left ht.free
  refine ⟨ht.same.locked.trans h.unlocked, ht.same.base.trans h.base_eq, ht.same.size.trans h.size_eq, hfits, ht.normal,
    ?_, ?_, ?_, ?_, ?_, ?_⟩
  · -- what is taken is no longer free
    have hused := h.used
    have hrest : r'.freePoints.ncard = s.region.freePoints.ncard - n := by
      rw [ht.rest, Set.ncard_sdiff ht.free (finite_points _), hcard]
    have hle : blocks.points.ncard ≤ s.region.freePoints.ncard := Set.ncard_le_ncard ht.free (finite_points _)
    have htotal : s.region.freeBlocks.total = s.region.freePoints.ncard := h.normal.total_eq
    have htotal' : r'.freeBlocks.total = r'.freePoints.ncard := ht.normal.total_eq
    show r'.used + r'.freeBlocks.total = size
    rw [htotal', ht.used, addU32, Nat.mod_eq_of_lt (by omega)]
    omega
  · show r'.freePoints ⊆ _
    rw [ht.rest]
    exact Set.sdiff_subset.trans h.free_sub
  · rw [points_append]
    exact Set.union_subset (ht.free.trans h.free_sub) h.out_sub
  · show Disjoint r'.freePoints _
    rw [ht.rest, points_append, Set.disjoint_union_right]
    exact ⟨Set.disjoint_sdiff_left, h.disjoint.mono_left Set.sdiff_subset⟩
  · refine List.pairwise_append.mpr ⟨hapart, h.apart, ?_⟩
    intro p hp q hq
    refine hblocks.mono ?_ ?_
    · exact fun x hx => ⟨p, hp, hx⟩
    · exact fun x hx => ⟨q, hq, hx⟩
  · intro p hp
    rcases List.mem_append.mp hp with hp | hp
    · exact hsmall p hp
    · exact h.small p hp

private theorem Ok.takes_single (h : Ok base size s) {lower n : Nat} {r' : MemoryRegionInfo}
    (ht : Takes s.region [(lower, lower + n)] n r') (hwrap : lower + n < 2 ^ 32) :
    Ok base size ⟨r', (lower, lower + n) :: s.outstanding⟩ := by
  refine h.takes ht ?_ (List.pairwise_singleton _ _) ?_
  · rw [points_singleton, ncard_between]
    omega
  · intro p hp
    cases List.mem_singleton.mp hp
    exact ⟨by simp, hwrap⟩

private theorem Ok.takes_heap (h : Ok base size s) {blocks : IntervalSet} {n : Nat} {r' : MemoryRegionInfo}
    (hn : blocks.Normal) (ht : Takes s.region blocks n r') : Ok base size ⟨r', blocks ++ s.outstanding⟩ := by
  have hfits := h.fits
  refine h.takes ht (hn.total_eq.symm.trans ht.total) ?_ ?_
  · refine hn.gaps.imp ?_
    intro p q hpq
    refine Set.disjoint_left.mpr ?_
    rintro x ⟨-, hx⟩ ⟨hx', -⟩
    omega
  · rintro ⟨lower, upper⟩ hp
    have hne : lower < upper := hn.nonempty _ hp
    have hlast : upper - 1 ∈ blocks.points :=
      mem_points.mpr ⟨_, hp, Nat.le_sub_one_of_lt hne, Nat.sub_one_lt (by omega)⟩
    have hin := (h.free_sub (ht.free hlast)).2
    exact ⟨Nat.le_of_lt hne, by show upper < 2 ^ 32; omega⟩

private theorem split_of_getElem? {l : IntervalSet} {number : Nat} {p : Nat × Nat} (h : l[number]? = some p) :
    ∃ before after, l = before ++ p :: after ∧ l.eraseIdx number = before ++ after := by
  induction l generalizing number with
  | nil => simp at h
  | cons a l ih =>
    cases number with
    | zero =>
      have ha : a = p := by simpa using h
      subst ha
      exact ⟨[], l, rfl, rfl⟩
    | succ number =>
      obtain ⟨before, after, h1, h2⟩ := ih (by simpa using h)
      exact ⟨a :: before, after, by rw [h1]; rfl, by simp [h2]⟩

private theorem Ok.free (h : Ok base size s) {number lower upper : Nat}
    (hget : s.outstanding[number]? = some (lower, upper)) :
    ∃ r', s.region.free lower (subU32 upper lower) = .ok r' ∧ Ok base size ⟨r', s.outstanding.eraseIdx number⟩ := by
  have hmem : (lower, upper) ∈ s.outstanding := List.mem_of_getElem? hget
  obtain ⟨hle, hupper⟩ := h.small _ hmem
  have hle : lower ≤ upper := hle
  have hupper : upper < 2 ^ 32 := hupper
  have hblock : between lower upper ⊆ s.outstanding.points := fun x hx => ⟨_, hmem, hx⟩
  have hnot : Disjoint s.region.freePoints (between lower upper) := h.disjoint.mono_right hblock
  have hsub := List.eraseIdx_sublist s.outstanding number
  obtain ⟨r', hfree, hback⟩ := free_getsBack h.unlocked h.normal hle hupper hnot
  rw [subU32_of_le hle hupper]
  -- the other outstanding blocks do not meet the block that is freed
  obtain ⟨before, after, hsplit, herase⟩ := split_of_getElem? hget
  have hothers : ∀ q ∈ s.outstanding.eraseIdx number, Disjoint (between lower upper) (between q.1 q.2) := by
    intro q hq
    have hapart := h.apart
    rw [hsplit] at hapart
    obtain ⟨-, hafter, hbefore⟩ := List.pairwise_append.mp hapart
    rw [herase] at hq
    rcases List.mem_append.mp hq with hq | hq
    · exact (hbefore q hq _ List.mem_cons_self).symm
    · exact (List.pairwise_cons.mp hafter).1 q hq
  have hout : points (s.outstanding.eraseIdx number) ⊆ s.outstanding.points := by
    rintro x ⟨p, hp, hx⟩
    exact ⟨p, hsub.subset hp, hx⟩
  have hinside : r'.freePoints ⊆ between base (base + size) := by
    rw [hback.free]
    exact Set.union_subset h.free_sub (hblock.trans h.out_sub)
  have hused : r'.used + r'.freeBlocks.total = size := by
    -- what is freed has been counted as used
    have hused := h.used
    have hfits := h.fits
    have htotal : s.region.freeBlocks.total = s.region.freePoints.ncard := h.normal.total_eq
    have htotal' : r'.freeBlocks.total = r'.freePoints.ncard := hback.normal.total_eq
    have hcard : r'.freePoints.ncard = s.region.freePoints.ncard + (upper - lower) := by
      rw [hback.free, Set.ncard_union_eq hnot (finite_points _) (Set.finite_Ico _ _), ncard_between]
    have hmax : r'.freePoints.ncard ≤ (between base (base + size)).ncard :=
      Set.ncard_le_ncard hinside (Set.finite_Ico _ _)
    rw [ncard_between] at hmax
    rw [hback.used, subU32_of_le (by omega) (by omega)]
    omega
  refine ⟨r', hfree, hback.same.locked.trans h.unlocked, hback.same.base.trans h.base_eq,
    hback.same.size.trans h.size_eq, h.fits, hback.normal, hused, hinside, hout.trans h.out_sub, ?_,
    h.apart.sublist hsub, fun p hp => h.small p (hsub.subset hp)⟩
  rw [hback.free, Set.disjoint_union_left]
  refine ⟨h.disjoint.mono_right hout, Set.disjoint_left.mpr ?_⟩
  rintro x hx ⟨q, hq, hx'⟩
  exact Set.disjoint_left.mp (hothers q hq) hx hx'

private theorem Ok.exec (h : Ok base size s) {call : Call} (hcall : call.NoWrap) :
    ∃ s', s.exec call = .ok s' ∧ Ok base size s' := by
  cases call with
  | heapAllocate n =>
    rcases heapAllocate_takes h.unlocked h.normal h.used_lt n with ⟨-, heq⟩ | ⟨-, blocks, r', heq, hn, ht, -⟩
    · refine ⟨s, ?_, h⟩
      simp only [Ledger.exec, heq, bind, Except.bind, pure, Except.pure, List.nil_append]
    · refine ⟨_, ?_, h.takes_heap hn ht⟩
      simp only [Ledger.exec, heq, bind, Except.bind, pure, Except.pure]
  | linearAllocate n =>
    rcases linearAllocate_takes h.unlocked h.normal h.freeBlock_small n with
      ⟨-, heq⟩ | ⟨lower, upper, r', -, -, -, hadd, heq, ht⟩
    · refine ⟨s, ?_, h⟩
      simp only [Ledger.exec, heq, grant, bind, Except.bind, pure, Except.pure]
    · refine ⟨_, ?_, h.takes_single ht (by rw [← hadd]; exact addU32_lt _ _)⟩
      simp only [Ledger.exec, heq, grant, hadd, bind, Except.bind, pure, Except.pure]
  | rLinearAllocate n =>
    rcases rLinearAllocate_takes h.unlocked h.normal h.freeBlock_small n with ⟨-, heq⟩ | ⟨lower, r', hadd, heq, ht⟩
    · refine ⟨s, ?_, h⟩
      simp only [Ledger.exec, heq, grant, bind, Except.bind, pure, Except.pure]
    · refine ⟨_, ?_, h.takes_single ht (by rw [← hadd]; exact addU32_lt _ _)⟩
      simp only [Ledger.exec, heq, grant, hadd, bind, Except.bind, pure, Except.pure]
  | linearAllocateAt offset n =>
    have hwrap : offset + n < 2 ^ 32 := hcall
    rcases linearAllocateAt_takes h.unlocked h.normal hwrap with heq | ⟨r', heq, ht⟩
    · refine ⟨s, ?_, h⟩
      simp only [Ledger.exec, heq, grant, bind, Except.bind, pure, Except.pure, Bool.false_eq_true, if_false]
    · refine ⟨_, ?_, h.takes_single ht hwrap⟩
      simp only [Ledger.exec, heq, grant, addU32_of_lt hwrap, bind, Except.bind, pure, Except.pure, if_true]
  | free number =>
    cases hget : s.outstanding[number]? with
    | none =>
      refine ⟨s, ?_, h⟩
      simp only [Ledger.exec, hget]
    | some p =>
      obtain ⟨lower, upper⟩ := p
      obtain ⟨r', hfree, hok⟩ := h.free hget
      refine ⟨_, ?_, hok⟩
      simp only [Ledger.exec, hget, hfree, bind, Except.bind, pure, Except.pure]

private theorem Ok.run (h : Ok base size s) (calls : List Call) (hcalls : ∀ call ∈ calls, call.NoWrap) :
    ∃ s', s.run calls = .ok s' ∧ Ok base size s' := by
  unfold Ledger.run
  induction calls generalizing s with
  | nil => exact ⟨s, rfl, h⟩
  | cons call calls ih =>
    obtain ⟨s₁, hstep, h₁⟩ := h.exec (hcalls call List.mem_cons_self)
    obtain ⟨s', hrest, h'⟩ := ih h₁ fun call hmem => hcalls call (List.mem_cons_of_mem _ hmem)
    refine ⟨s', ?_, h'⟩
    rw [List.foldlM_cons, hstep]
    exact hrest

structure Grants (s : Ledger) (blocks : IntervalSet) (n : Nat) : Prop where
  inside : blocks.points ⊆ between s.region.base (s.region.base + s.region.size)
  disjoint : ∀ p ∈ s.outstanding, Disjoint blocks.points (between p.1 p.2)
  total : blocks.total = n

/-- What holds of the allocator between two calls, and what the next call does. -/
structure AllocatorOk (base size : Nat) (s : Ledger) : Prop where
  base_eq : s.region.base = base
  size_eq : s.region.size = size
  /-- `free_blocks` are the maximal free ranges. -/
  normal : s.region.freeBlocks.Normal
  balance : s.region.used + s.region.freeBlocks.total = size
  heapAllocate : ∀ n, ∃ blocks r', s.region.heapAllocate n = .ok (blocks, r') ∧
    (blocks = [] → r' = s.region) ∧ (blocks ≠ [] → s.Grants blocks n) ∧
    (0 < n → (blocks = [] ↔ s.region.freeBlocks.total < n))
  linearAllocate : ∀ n, ∃ answer r', s.region.linearAllocate n = .ok (answer, r') ∧
    (answer = none ↔ ∀ p ∈ s.region.freeBlocks, p.2 - p.1 < n) ∧ (answer = none → r' = s.region) ∧
    ∀ a ∈ answer, s.Grants [(a, a + n)] n ∧ (∃ p ∈ s.region.freeBlocks, p.1 = a ∧ n ≤ p.2 - p.1) ∧
      ∀ p ∈ s.region.freeBlocks, n ≤ p.2 - p.1 → a ≤ p.1
  rLinearAllocate : ∀ n, ∃ answer r', s.region.rLinearAllocate n = .ok (answer, r') ∧
    (answer = none → r' = s.region) ∧ ∀ a ∈ answer, s.Grants [(a, a + n)] n
  linearAllocateAt : ∀ offset n, offset + n < 2 ^ 32 → ∃ allocated r',
    s.region.linearAllocateAt offset n = .ok (allocated, r') ∧
    (allocated = false → r' = s.region) ∧ (allocated = true → s.Grants [(offset, offset + n)] n)

private theorem Ok.grants (h : Ok base size s) {blocks : IntervalSet} {n : Nat} {r' : MemoryRegionInfo}
    (ht : Takes s.region blocks n r') : s.Grants blocks n where
  inside := by
    rw [h.base_eq, h.size_eq]
    exact ht.free.trans h.free_sub
  disjoint p hp := h.disjoint.mono ht.free fun _ hx => mem_points.mpr ⟨p, hp, hx⟩
  total := ht.total

private theorem Ok.allocatorOk (h : Ok base size s) : AllocatorOk base size s where
  base_eq := h.base_eq
  size_eq := h.size_eq
  normal := h.normal
  balance := h.used
  heapAllocate n := by
    rcases heapAllocate_takes h.unlocked h.normal h.used_lt n with
      ⟨hlt, heq⟩ | ⟨hle, blocks, r', heq, -, ht, hnil⟩
    · refine ⟨[], s.region, heq, fun _ => rfl, fun hne => absurd rfl hne, fun _ => ?_⟩
      exact iff_of_true rfl hlt
    · refine ⟨blocks, r', heq, hnil, fun _ => h.grants ht, ?_⟩
      intro hpos
      refine iff_of_false ?_ (Nat.not_lt.mpr hle)
      rintro rfl
      have htotal : 0 = n := ht.total
      omega
  linearAllocate n := by
    rcases linearAllocate_takes h.unlocked h.normal h.freeBlock_small n with
      ⟨hno, heq⟩ | ⟨lower, upper, r', hmem, hlarge, hfirst, -, heq, ht⟩
    · exact ⟨none, s.region, heq, iff_of_true rfl hno, fun _ => rfl, fun _ ha => nomatch ha⟩
    · refine ⟨some lower, r', heq, iff_of_false (by simp) ?_, (nomatch ·), ?_⟩
      · intro hno
        have hlt : upper - lower < n := hno _ hmem
        omega
      · rintro a ⟨⟩
        exact ⟨h.grants ht, ⟨_, hmem, rfl, hlarge⟩, hfirst⟩
  rLinearAllocate n := by
    rcases rLinearAllocate_takes h.unlocked h.normal h.freeBlock_small n with ⟨-, heq⟩ | ⟨lower, r', -, heq, ht⟩
    · exact ⟨none, s.region, heq, fun _ => rfl, fun _ ha => nomatch ha⟩
    · refine ⟨some lower, r', heq, (nomatch ·), ?_⟩
      rintro a ⟨⟩
      exact h.grants ht
  linearAllocateAt offset n hwrap := by
    rcases linearAllocateAt_takes h.unlocked h.normal hwrap with heq | ⟨r', heq, ht⟩
    · exact ⟨false, s.region, heq, fun _ => rfl, fun hne => nomatch hne⟩
    · exact ⟨true, r', heq, (nomatch ·), fun _ => h.grants ht⟩

def start (base size : Nat) : Ledger := ⟨reset base size, []⟩

/-- In a run whose ranges do not wrap no call trips an assertion, and the allocator is in order after every call. -/
theorem run_allocatorOk (base size : Nat) (hwrap : base + size < 2 ^ 32) (calls : List Call)
    (hcalls : ∀ call ∈ calls, call.NoWrap) : ∃ s, (start base size).run calls = .ok s ∧ AllocatorOk base size s := by
  obtain ⟨s, hrun, hok⟩ := (ok_start hwrap).run calls hcalls
  exact ⟨s, hrun, hok.allocatorOk⟩

def sampleCalls : List Call :=
  [.linearAllocate 0x1000, .rLinearAllocate 0x1000, .linearAllocateAt 0x1000 0x1000, .free 1, .heapAllocate 0x2000]

theorem sampleCalls_allocatorOk :
    (∀ call ∈ sampleCalls, call.NoWrap) ∧
      ∃ s, (start 0 0x4000).run sampleCalls = .ok s ∧ s.outstanding.length = 3 ∧ AllocatorOk 0 0x4000 s := by
  refine ⟨by decide, ?_⟩
  obtain ⟨s, hrun, hok⟩ := run_allocatorOk 0 0x4000 (by decide) sampleCalls (by decide)
  refine ⟨s, hrun, ?_, hok⟩
  have hlength : ((start 0 0x4000).run sampleCalls).toOption.map (fun s => s.outstanding.length) = some 3 := by decide
  rw [hrun] at hlength
  exact Option.some_injective _ hlength

/-- A range that wraps is "allocated" without taking anything, and `used` no longer counts what is not free. -/
theorem wrappingCall_breaks_balance :
    ∃ s, (start 0 0x4000).run [.linearAllocateAt 0xFFFFF000 0x2000] = .ok s ∧
      s.region.used + s.region.freeBlocks.total ≠ 0x4000 ∧ s.outstanding = [(0xFFFFF000, 0x1000)] := by
  refine ⟨_, rfl, ?_, ?_⟩ <;> decide

end Ledger

end MemoryRegionInfo

end SweepDSEmu
