import SweepDSEmu.Kernel.MapInverse

/-!
# Free areas

`MapBackingMemory` needs one free area around its range.  Here this area is followed through the loops of `Map` and
`HeapAllocate`, which map a list of blocks one after the other: each block takes the front of the area, and what is
left is one free area again.
-/

namespace SweepDSEmu

open VirtualMemoryArea

namespace VMManager

section Merging

variable {pre post : Areas} {v : VirtualMemoryArea}

private theorem mem_merged_free (pre post : Areas) (hv : v.type ≠ .free) {p : Nat × VirtualMemoryArea} (hp : p.2.type = .free) :
    (merged pre v post).2.1.type = v.type ∧
      (p ∈ (merged pre v post).1 ∨ p ∈ (merged pre v post).2.2 ↔ p ∈ pre ∨ p ∈ post) := by
  have hnext : (joinNext v post).1.type = v.type ∧ (p ∈ (joinNext v post).2 ↔ p ∈ post) := by
    rcases joinNext_cases v post with ⟨hj, -⟩ | ⟨n, post', rfl, hmerge, hj⟩ <;> rw [hj]
    · exact ⟨rfl, Iff.rfl⟩
    · refine ⟨rfl, ?_⟩
      rw [List.mem_cons, or_iff_right]
      rintro rfl
      exact hv (hmerge.2.2.1.trans hp)
  obtain ⟨htype, hpost⟩ := hnext
  have hprev : (joinPrev pre (joinNext v post).1).2.type = v.type ∧
      (p ∈ (joinPrev pre (joinNext v post).1).1 ↔ p ∈ pre) := by
    rcases joinPrev_cases pre (joinNext v post).1 with ⟨hj, -⟩ | ⟨u, pre', rfl, hmerge, hj⟩ <;> rw [hj]
    · exact ⟨htype, Iff.rfl⟩
    · refine ⟨hmerge.2.2.1.trans htype, ?_⟩
      rw [List.mem_append, List.mem_singleton, or_iff_left]
      rintro rfl
      exact hv (htype.symm.trans (hmerge.2.2.1.symm.trans hp))
  obtain ⟨htype', hpre⟩ := hprev
  refine ⟨htype', ?_⟩
  unfold merged
  rw [hpre, hpost]

private theorem mem_mergedAreas_free (hv : v.type ≠ .free) {p : Nat × VirtualMemoryArea} (hp : p.2.type = .free) :
    p ∈ mergedAreas pre v post ↔ p ∈ pre ∨ p ∈ post := by
  obtain ⟨htype, hmem⟩ := mem_merged_free pre post hv hp
  rw [← hmem]
  unfold mergedAreas
  rw [List.mem_append, List.mem_cons, or_congr_right (or_iff_right ?_)]
  rintro rfl
  exact hv (htype.symm.trans hp)

end Merging

def FreeArea (m : VMManager) (t e : Nat) : Prop := ∃ p ∈ m.vmaMap, p.2.type = .free ∧ p.2.base ≤ t ∧ e ≤ p.2.stop

variable {m m' : VMManager} {target memory size e : Nat} {state : MemoryState} {perms : VMAPermission}

theorem mapBlock_returns (hm : m.Sound) (state : MemoryState) (perms : VMAPermission) (hmem : memory ≠ 0)
    (ht : target % pageSize = 0) (hs : size % pageSize = 0) (hpos : 0 < size) (hle : target + size ≤ e)
    (hfree : m.FreeArea target e) :
    ∃ m', m.mapBlock target memory size state perms = .ok m' ∧ (target + size < e → m'.FreeArea (target + size) e) := by
  obtain ⟨⟨k, v⟩, hv, htype, hbase, hstop⟩ := hfree
  obtain ⟨pre, post, hsplit⟩ := List.append_of_mem hv
  have htiled := hm.tiled
  unfold Tiled at htiled
  obtain rfl : k = v.base := by
    rw [hsplit] at htiled
    exact (tiles_split.mp htiled).2.1
  simp only at htype hbase hstop
  obtain ⟨pre', w, post', hc, hrest, hcarve⟩ := carveVMA_rest hm.tiled hsplit htype ht hs hpos hbase (by omega)
  obtain ⟨ht', hmap⟩ := mapBackingMemory_of_carve hm.unlocked state hmem hc hcarve
  obtain ⟨htm, -⟩ := mergedAreas_tiles ht'
  -- `Reprotect` of the area that has been merged
  obtain ⟨-, hrep⟩ := updateVMA_eq (m := { m with vmaMap := mergedAreas pre' (mapped memory state w) post' })
    (f := reprotected perms) htm rfl rfl rfl
  unfold mapBlock
  rw [hmap]
  simp only [unwrap, bind, Except.bind, pure, Except.pure]
  unfold reprotect
  simp only [guard, if_pos hm.unlocked, Option.bind_eq_bind, hrep]
  refine ⟨_, rfl, ?_⟩
  intro hlt
  obtain ⟨r, hr, hrfree, hrbase, hrstop⟩ := hrest (by omega)
  refine ⟨(r.base, r), ?_, hrfree, Nat.le_of_eq hrbase, by simp only; omega⟩
  have hmapped : (mapped memory state w).type ≠ .free := nofun
  obtain ⟨htype', hmem⟩ := mem_merged_free pre' post' hmapped
    (show ((r.base, r) : Nat × VirtualMemoryArea).2.type = .free from hrfree)
  refine (mem_mergedAreas_free ?_ hrfree).mpr (hmem.mpr (Or.inr hr))
  show (merged pre' (mapped memory state w) post').2.1.type ≠ .free
  rw [htype']
  exact hmapped

/-- The loop of `Map` returns when one free area has room for all blocks. -/
theorem mapBlocks_returns (hm : m.Sound) (state : MemoryState) (perms : VMAPermission) (blocks : List (Nat × Nat))
    (hblocks : ∀ p ∈ blocks, p.1 ≠ 0 ∧ p.2 % pageSize = 0 ∧ 0 < p.2) (ht : target % pageSize = 0)
    (hsize : target + blocksSize blocks ≤ e) (he : e ≤ maxAddress) (hfree : blocks ≠ [] → m.FreeArea target e) :
    ∃ m', mapBlocks state perms blocks target m = .ok m' := by
  induction blocks generalizing target m with
  | nil => exact ⟨m, rfl⟩
  | cons p blocks ih =>
    obtain ⟨memory, size⟩ := p
    obtain ⟨hmem, hs, hpos⟩ := hblocks _ List.mem_cons_self
    have hmax : maxAddress < 2 ^ 32 := by decide
    have hsum : blocksSize ((memory, size) :: blocks) = size + blocksSize blocks := by simp [blocksSize]
    simp only at hmem hs hpos
    obtain ⟨m₁, hmap, hrest⟩ := mapBlock_returns hm state perms hmem ht hs hpos (by omega) (hfree (by simp))
    obtain ⟨-, -, lo, hi, hmaps⟩ := mapBlock_maps hm (by omega) (by omega) hmap
    have hadd : addU32 target size = target + size := addU32_of_lt (by omega)
    have htail : blocks ≠ [] → m₁.FreeArea (target + size) e := by
      intro hne
      obtain ⟨q, blocks', rfl⟩ := List.exists_cons_of_ne_nil hne
      have hq := (hblocks q (by simp)).2.2
      have hqsum : blocksSize (q :: blocks') = q.2 + blocksSize blocks' := by simp [blocksSize]
      exact hrest (by omega)
    obtain ⟨m₂, hrun⟩ := ih hmaps.sound (fun q hq => hblocks q (List.mem_cons_of_mem _ hq))
      (show (target + size) % pageSize = 0 by unfold pageSize at *; omega) (by omega) htail
    refine ⟨m₂, ?_⟩
    unfold mapBlocks
    rw [hmap]
    simp only [bind, Except.bind, hadd]
    exact hrun

/-- The loop of `HeapAllocate` is the loop of `Map` for blocks of FCRAM. -/
theorem mapIntervals_eq (fcram : Nat) (state : MemoryState) (perms : VMAPermission) (intervals : IntervalSet)
    (hin : ∀ p ∈ intervals, p.1 ≤ p.2 ∧ p.2 ≤ fcramN3dsSize) :
    mapIntervals fcram state perms intervals target m =
      mapBlocks state perms (intervals.map fun p => (fcram + p.1, p.2 - p.1)) target m := by
  induction intervals generalizing target m with
  | nil => rfl
  | cons p intervals ih =>
    obtain ⟨lower, upper⟩ := p
    obtain ⟨hle, hupper⟩ := hin _ List.mem_cons_self
    simp only at hle hupper
    have hsmall : fcramN3dsSize < 2 ^ 32 := by decide
    have hsub : subU32 upper lower = upper - lower := subU32_of_le hle (by omega)
    have hrest : ∀ (target : Nat) (m : VMManager), mapIntervals fcram state perms intervals target m =
        mapBlocks state perms (intervals.map fun p => (fcram + p.1, p.2 - p.1)) target m :=
      fun _ _ => ih fun q hq => hin q (List.mem_cons_of_mem _ hq)
    have hlower : lower ≤ fcramN3dsSize := by omega
    simp only [mapIntervals, getFCRAMRef, assert, if_pos hlower, if_pos hupper, List.map_cons, mapBlocks, hsub, hrest,
      bind, Except.bind, pure, Except.pure]

theorem freeArea_of_mapBlock (hm : m.Sound) (ht : target < 2 ^ 32) (hs : size < 2 ^ 32)
    (h : m.mapBlock target memory size state perms = .ok m') : 0 < size ∧ m.FreeArea target (target + size) := by
  obtain ⟨hpos, hfits, -⟩ := mapBlock_maps hm ht hs h
  refine ⟨hpos, ?_⟩
  obtain ⟨⟨r, m₁⟩, hmap, h⟩ := ok_of_bind h
  rw [unwrap_eq_ok] at hmap
  cases r with
  | error e => cases h
  | ok k =>
    have hmax : maxAddress < 2 ^ 32 := by decide
    have htiled := hm.tiled
    obtain ⟨pre, v, post, hsplit, hv, hv'⟩ := htiled.find (Nat.zero_le target) (show target < maxAddress by omega)
    unfold mapBackingMemory carveVMA at hmap
    simp only [Option.bind_eq_bind, Option.bind_eq_some_iff, Option.guard_eq_some', pure,
      findVMA_eq hm.tiled hsplit hv hv', get?_area hm.tiled hsplit, Option.bind_some] at hmap
    obtain ⟨-, -, -, -, ⟨res, m₂⟩, ⟨-, -, -, -, hcarve⟩, hres⟩ := hmap
    refine ⟨(v.base, v), by rw [hsplit]; simp, ?_, hv, ?_⟩
    · by_contra htype
      rw [if_pos htype] at hcarve
      cases hcarve
      cases hres
    · by_contra hlt
      have hadd : addU32 (target - v.base) size = target - v.base + size := addU32_of_lt (by omega)
      have hlarge : addU32 (target - v.base) size > v.size := by
        simp only [stop] at hlt
        omega
      split at hcarve
      · cases hcarve
        cases hres
      · cases hcarve
        cases hres

private theorem updateRange_keeps_free {f : VirtualMemoryArea → VirtualMemoryArea} {F : PageAttr → PageAttr}
    (hu : Update f F) (hf : ∀ v, (f v).type = v.type) {t : Nat} (fuel : Nat) (vma : Option VMAIter) (ht : m.Tiled)
    (hvma : ∀ k ∈ vma, t ≤ k) (hout : ∀ p ∈ m.vmaMap, p.2.type = .free → p.2.stop ≤ t ∨ e ≤ p.2.base)
    (h : updateRange f e fuel vma m = some m') : ∀ p ∈ m.vmaMap, p.2.type = .free → p ∈ m'.vmaMap := by
  induction fuel generalizing vma m with
  | zero =>
    cases vma with
    | none =>
      cases h
      exact fun p hp _ => hp
    | some k => cases h
  | succ fuel ih =>
    cases vma with
    | none =>
      cases h
      exact fun p hp _ => hp
    | some k =>
      obtain ⟨v, hget, -⟩ := Option.bind_eq_some_iff.mp h
      have htiled := ht
      unfold Tiled at htiled
      obtain ⟨pre, post, hsplit⟩ := List.append_of_mem (mem_of_get? hget)
      obtain rfl : k = v.base := by
        rw [hsplit] at htiled
        exact (tiles_split.mp htiled).2.1
      have hk : t ≤ v.base := hvma _ rfl
      by_cases hlt : v.base < e
      · -- the area is in the range, so it is not free
        have hmem : (v.base, v) ∈ m.vmaMap := mem_of_get? hget
        have hpos : 0 < v.size := (htiled.mem hmem).2.1
        have hv : (f v).type ≠ .free := by
          rw [hf v]
          intro hfree
          have hcases := hout _ hmem hfree
          simp only [stop] at hcases
          omega
        rw [updateRange_step hu ht hsplit hlt] at h
        have ht₁ := (updateVMA_eq ht hsplit (hu.base v) (hu.size v)).1
        have hfree : ∀ p : Nat × VirtualMemoryArea, p.2.type = .free →
            (p ∈ mergedAreas pre (f v) post ↔ p ∈ m.vmaMap) := by
          intro p hp
          rw [mem_mergedAreas_free hv hp, hsplit, List.mem_append, List.mem_cons, or_congr_right]
          refine (or_iff_right ?_).symm
          rintro rfl
          exact hv ((hf v).trans hp)
        have hnext : ∀ k ∈ (joinNext (f v) post).2.head?.map Prod.fst, t ≤ k := by
          intro k hk'
          obtain ⟨q, hq, rfl⟩ := Option.map_eq_some_iff.mp hk'
          have hq : q ∈ (joinNext (f v) post).2 := List.mem_of_mem_head? hq
          have hpost : q ∈ post := by
            rcases joinNext_cases (f v) post with ⟨hj, -⟩ | ⟨n, post', rfl, -, hj⟩ <;> rw [hj] at hq
            · exact hq
            · exact List.mem_cons_of_mem _ hq
          rw [hsplit] at htiled
          obtain ⟨hkey, -, hafter, -⟩ := (tiles_split.mp htiled).2.2.2.mem hpost
          unfold stop at hafter
          omega
        have hrun := ih (m := { m with vmaMap := mergedAreas pre (f v) post }) _ (mergedAreas_tiles ht₁).1 hnext
          (fun p hp hp' => hout p ((hfree p hp').mp hp) hp') h
        exact fun p hp hp' => hrun p ((hfree p hp').mpr hp) hp'
      · have hdone : m = m' := by
          simp only [updateRange, hget, Option.bind_eq_bind, Option.bind_some, if_neg hlt, pure] at h
          exact Option.some_injective _ h
        exact fun p hp _ => hdone ▸ hp

private theorem mem_cut_free {l l₁ l₂ : Areas} {x : Nat} (h : Cut l x l₁ l₂)
    (hx : ∀ q ∈ l, q.2.base < x → x < q.2.stop → q.2.type ≠ .free) {p : Nat × VirtualMemoryArea}
    (hp : p.2.type = .free) : p ∈ l₁ ∨ p ∈ l₂ ↔ p ∈ l := by
  cases h with
  | boundary _ _ h => rw [h, List.mem_append]
  | inside q s v h h1 h2 =>
    have hv : v.type ≠ .free := hx (v.base, v) (by rw [h]; simp) h1 h2
    have hne : ∀ w : VirtualMemoryArea, w.type = v.type → ∀ k, p ≠ (k, w) := by
      rintro w hw k rfl
      exact hv (hw.symm.trans hp)
    have hold : p ≠ (v.base, v) := hne v rfl _
    have hleft : p ≠ (v.base, v.splitLeft (x - v.base)) := hne (v.splitLeft (x - v.base)) rfl _
    have hright : p ≠ (x, v.splitRight (x - v.base)) := hne (v.splitRight (x - v.base)) rfl _
    simp only [h, List.mem_append, List.mem_cons, List.not_mem_nil, hold, hleft, hright, or_false, false_or]

theorem changeMemoryState_keeps_free (hm : m.Sound) (ht : target < 2 ^ 32) (hs : size < 2 ^ 32)
    {es ns : MemoryState} {ep np : VMAPermission} (h : m.changeMemoryState target size es ep ns np = some (.success, m')) :
    ∀ p ∈ m.vmaMap, p.2.type = .free → p ∈ m'.vmaMap := by
  have hr := rangeOk_of_changeMemoryState hm.unlocked ht hs h
  have hpos := hr.pos
  unfold changeMemoryState at h
  simp only [hm.unlocked, Bool.false_eq_true, if_false, hr.addU32_eq] at h
  split at h
  · cases h
  split at h
  · cases h
  rcases carveVMARange_eq hm.tiled hr with hcarve | ⟨pre, mid, tail, hc, hmapped, hcarve⟩
  · rw [hcarve] at h
    cases h
  rw [hcarve] at h
  simp only [Option.bind_eq_bind, Option.bind_some] at h
  obtain ⟨m₁, hrun, h⟩ := Option.bind_eq_some_iff.mp h
  cases h
  -- an area that meets the range is not free
  have htiled := hm.tiled
  unfold Tiled at htiled
  have hmeets : ∀ p ∈ m.vmaMap, p.2.type = .free → p.2.stop ≤ target ∨ target + size ≤ p.2.base := by
    intro p hp hfree
    by_contra hcon
    obtain ⟨hkey, hsize, -, -⟩ := htiled.mem hp
    obtain ⟨l₁, l₂, hsplit⟩ := List.append_of_mem hp
    have habs : absAt m.vmaMap (max target p.2.base) = some (p.2.attrAt (max target p.2.base)) := by
      rw [hsplit] at htiled ⊢
      refine absAt_split_mem htiled (by omega) ?_
      unfold stop at *
      omega
    exact hmapped (max target p.2.base) (by omega) (by omega) _ habs hfree
  obtain ⟨l', hcut, hcut'⟩ := hc.cuts
  have hfree : ∀ p : Nat × VirtualMemoryArea, p.2.type = .free → (p ∈ pre ++ mid ++ tail ↔ p ∈ m.vmaMap) := by
    intro p hp
    have hleft := mem_cut_free hcut (fun q hq h1 h2 hq' => by have := hmeets q hq hq'; omega) hp
    have hright := mem_cut_free hcut' (fun q hq h1 h2 hq' => ?_) hp
    · rw [List.append_assoc, List.mem_append, List.mem_append, hright, hleft]
    · have hmem : q ∈ m.vmaMap :=
        (mem_cut_free hcut (fun q hq h1 h2 hq' => by have := hmeets q hq hq'; omega) hq').mp (Or.inr hq)
      have := hmeets q hmem hq'
      omega
  have htiled₁ : Tiled { m with vmaMap := pre ++ mid ++ tail } :=
    tiles_append.mpr ⟨_, tiles_append.mpr ⟨_, hc.tilesPre, hc.tilesMid⟩, hc.tilesTail⟩
  have hkeeps := updateRange_keeps_free (changed_update ns np) (fun _ => rfl) _ _ htiled₁
    (fun k hk => Nat.le_of_eq (Option.some_injective _ hk)) (fun p hp hp' => hmeets p ((hfree p hp').mp hp) hp') hrun
  exact fun p hp hp' => hkeeps p ((hfree p hp').mpr hp) hp'

private theorem stop_aligned (hm : m.Sound) {pre post : Areas} {v : VirtualMemoryArea}
    (hsplit : m.vmaMap = pre ++ (v.base, v) :: post) : v.stop % pageSize = 0 := by
  have htiled := hm.tiled
  unfold Tiled at htiled
  rw [hsplit] at htiled
  have htail := (tiles_split.mp htiled).2.2.2
  cases post with
  | nil =>
    have hstop : v.stop = maxAddress := htail
    rw [hstop]
    rfl
  | cons q post =>
    obtain ⟨hkey, -, -, -⟩ := htail
    have haligned := (hm.aligned q (by rw [hsplit]; simp)).1
    rw [← hkey]
    exact haligned

private theorem backingBlocksLoop_aligned (hm : m.Sound) (he : e % pageSize = 0) (fuel x : Nat)
    (blocks result : List (Nat × Nat)) (hx : x % pageSize = 0) (hle : x ≤ e)
    (hblocks : ∀ p ∈ blocks, p.1 ≠ 0 ∧ p.2 % pageSize = 0 ∧ 0 < p.2)
    (h : m.backingBlocksLoop e fuel x blocks = some (.ok result)) :
    ∀ p ∈ result, p.1 ≠ 0 ∧ p.2 % pageSize = 0 ∧ 0 < p.2 := by
  induction fuel generalizing x blocks with
  | zero => cases h
  | succ fuel ih =>
    unfold backingBlocksLoop at h
    split at h
    · cases h
      exact hblocks
    · simp only [Option.bind_eq_bind, Option.bind_eq_some_iff] at h
      obtain ⟨k, hfind, v, hget, h⟩ := h
      have hlt : x < maxAddress := by
        by_contra hcon
        rw [findVMA_none m (by omega)] at hfind
        cases hfind
      have htiled := hm.tiled
      unfold Tiled at htiled
      obtain ⟨pre, w, post, hw, h1, h2⟩ := htiled.find (Nat.zero_le x) hlt
      rw [findVMA_eq hm.tiled hw h1 h2] at hfind
      cases hfind
      rw [get?_area hm.tiled hw] at hget
      cases hget
      split at h
      · cases h
      · rename_i hne htype
        have htype : v.type = .backingMemory := not_not.mp htype
        have hend : (min e v.stop) % pageSize = 0 := by
          rcases Nat.le_total e v.stop with hcase | hcase
          · rw [Nat.min_eq_left hcase]
            exact he
          · rw [Nat.min_eq_right hcase]
            exact stop_aligned hm hw
        have hsize : (min e v.stop - x) % pageSize = 0 := by
          unfold pageSize at *
          omega
        refine ih _ _ (by unfold pageSize at *; omega) (by omega) ?_ h
        intro p hp
        rcases List.mem_append.mp hp with hp | hp
        · exact hblocks p hp
        · rw [List.mem_singleton.mp hp]
          refine ⟨?_, hsize, by simp only; omega⟩
          have habs : absAt m.vmaMap x = some (v.attrAt x) := by
            rw [hw] at htiled ⊢
            exact absAt_split_mem htiled h1 h2
          have hnonnull := hm.nonnull x _ habs htype
          simpa [attrAt, htype] using hnonnull

theorem getBackingBlocksForRange_aligned (hm : m.Sound) (ht : target % pageSize = 0) (hs : size % pageSize = 0)
    (hlt : target + size < 2 ^ 32) {blocks : List (Nat × Nat)}
    (h : m.getBackingBlocksForRange target size = some (.ok blocks)) :
    ∀ p ∈ blocks, p.1 ≠ 0 ∧ p.2 % pageSize = 0 ∧ 0 < p.2 := by
  unfold getBackingBlocksForRange at h
  rw [addU32_of_lt hlt] at h
  exact backingBlocksLoop_aligned hm (by unfold pageSize at *; omega) _ _ _ _ ht (by omega)
    (fun p hp => absurd hp List.not_mem_nil) h

end VMManager

end SweepDSEmu
