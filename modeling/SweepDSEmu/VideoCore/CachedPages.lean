import SweepDSEmu.Memory.PageTableConsistency
import SweepDSEmu.VideoCore.RasterizerCache

/-!
# Pages of surfaces

Which pages the loops over the pages of a surface go through, and what `RasterizerMarkRegionCached` marks.
-/

namespace SweepDSEmu.VideoCore

open Memory

namespace SurfaceParams

def Meets (params : SurfaceParams) (pageBits page : Nat) : Prop :=
  max params.addr (page * 2 ^ pageBits) < min (params.addr + params.size) ((page + 1) * 2 ^ pageBits)

instance (params : SurfaceParams) (pageBits page : Nat) : Decidable (params.Meets pageBits page) :=
  inferInstanceAs (Decidable (_ < _))

/-- The memory of a surface ends before the address space does.  An empty one starts at a page of the page table. -/
def Proper (params : SurfaceParams) : Prop :=
  (0 < params.size ∧ params.addr + params.size ≤ 2 ^ 32) ∨
    (params.size = 0 ∧ 0 < params.addr ∧ params.addr < 2 ^ 32 ∧ params.addr % 2 ^ citraPageBits = 0)

instance : DecidablePred Proper := fun _ => inferInstanceAs (Decidable (_ ∨ _))

end SurfaceParams

def pageVaddrs (pluginFb page : Nat) : List Nat :=
  Memory.MemorySystem.physicalToVirtualAddressForRasterizer pluginFb (page * pageSize)

namespace RasterizerCache

theorem nodup_pagesOf (addr size : Nat) : (pagesOf addr size).Nodup := List.nodup_range'

variable {page pluginFb vaddr : Nat}

theorem mem_pagesOf {params : SurfaceParams} (h : params.Proper) :
    page ∈ pagesOf params.addr params.size ↔ params.Meets citraPageBits page := by
  unfold pagesOf SurfaceParams.Meets
  unfold SurfaceParams.Proper at h
  simp only [List.mem_range'_1, citraPageBits, Nat.reducePow] at h ⊢
  rcases h with ⟨h1, h2⟩ | ⟨h1, h2, h3, h4⟩
  · omega
  · omega

theorem mem_countedPages {params : SurfaceParams} (h : params.Proper) :
    params.addr / pageSize ≤ page ∧ page < pageEndOf params.addr params.size ↔ params.Meets 12 page := by
  unfold pageEndOf SurfaceParams.Meets addU32 subU32
  unfold SurfaceParams.Proper at h
  simp only [pageSize, citraPageBits, Nat.reducePow] at h ⊢
  rcases h with ⟨h1, h2⟩ | ⟨h1, h2, h3, h4⟩
  · omega
  · omega

theorem pageEndOf_le {params : SurfaceParams} (h : params.Proper) : pageEndOf params.addr params.size ≤ 2 ^ 20 := by
  unfold pageEndOf addU32 subU32
  unfold SurfaceParams.Proper at h
  simp only [pageSize, citraPageBits, Nat.reducePow] at h ⊢
  rcases h with ⟨h1, h2⟩ | ⟨h1, h2, h3, h4⟩
  · omega
  · omega

theorem hasMarker_of_mem (h : vaddr ∈ pageVaddrs pluginFb page) : HasMarker vaddr :=
  (cacheable_of_mem h).1

private theorem mem_pageVaddrs (h : vaddr ∈ pageVaddrs pluginFb page) :
    (0x18000000 ≤ page * 4096 ∧ page * 4096 < 0x18600000 ∧ vaddr + 0x18000000 = page * 4096 + 0x1F000000) ∨
      (pluginFb ≠ 0 ∧ pluginFb ≤ page * 4096 ∧ page * 4096 < pluginFb + 0xA9000 ∧
        vaddr + pluginFb = page * 4096 + 0x6000000) ∨
      (0x20000000 ≤ page * 4096 ∧ page * 4096 < 0x28000000 ∧ vaddr + 0x20000000 = page * 4096 + 0x14000000) ∨
      (0x20000000 ≤ page * 4096 ∧ page * 4096 < 0x30000000 ∧ vaddr + 0x20000000 = page * 4096 + 0x30000000) := by
  unfold pageVaddrs Memory.MemorySystem.physicalToVirtualAddressForRasterizer at h
  split_ifs at h with h₁ h₂ h₃ h₄
  · have h := List.mem_singleton.mp h
    unfold InRegion Memory.vramPaddr Memory.vramSize pageSize at h₁
    unfold Memory.vramPaddr Memory.vramVaddr pageSize at h
    omega
  · have h := List.mem_singleton.mp h
    unfold InRegion plugin3gxFbSize pageSize at h₂
    unfold plugin3gxFbVaddr pageSize at h
    omega
  · unfold InRegion Memory.fcramPaddr Memory.fcramSize pageSize at h₃
    rcases List.mem_cons.mp h with h | h
    · unfold Memory.fcramPaddr Memory.linearHeapVaddr pageSize at h
      omega
    · have h := List.mem_singleton.mp h
      unfold Memory.fcramPaddr Memory.newLinearHeapVaddr pageSize at h
      omega
  · have h := List.mem_singleton.mp h
    unfold InRegion Memory.fcramPaddr Memory.fcramSize Memory.fcramN3dsSize pageSize at h₄
    unfold Memory.fcramPaddr Memory.newLinearHeapVaddr pageSize at h
    omega
  · cases h

theorem vaddr_aligned (hplugin : pluginFb % pageSize = 0)
    (h : vaddr ∈ pageVaddrs pluginFb page) : vaddr / pageSize * pageSize = vaddr := by
  have hcases := mem_pageVaddrs h
  simp only [pageSize] at hplugin ⊢
  omega

theorem page_unique {pluginFb page other vaddr : Nat} (h : vaddr ∈ pageVaddrs pluginFb page)
    (h' : vaddr ∈ pageVaddrs pluginFb other) : page = other := by
  have hcases := mem_pageVaddrs h
  have hcases' := mem_pageVaddrs h'
  omega

theorem page_pos (h : vaddr ∈ pageVaddrs pluginFb page) : 0 < page := by
  have hcases := mem_pageVaddrs h
  omega

private theorem isCached_foldl_mark {vaddrs : List Nat} (hhas : ∀ vaddr ∈ vaddrs, HasMarker vaddr) (cached : Bool)
    (marker : RasterizerCacheMarker) (page : Nat) :
    (vaddrs.foldl (fun m vaddr => m.mark vaddr cached) marker).isCached (page * pageSize) =
      if ∃ vaddr ∈ vaddrs, page = vaddr / pageSize then cached else marker.isCached (page * pageSize) := by
  induction vaddrs generalizing marker with
  | nil => simp
  | cons vaddr vaddrs ih =>
    rw [List.foldl_cons, ih fun v hv => hhas v (List.mem_cons_of_mem _ hv),
      RasterizerCacheMarker.isCached_mark marker (hhas vaddr List.mem_cons_self)]
    by_cases h : page = vaddr / pageSize
    · simp [h]
    · simp [h]

theorem cachedVaddrs_pages {pluginFb l u : Nat} (hl : 0 < l) (hlu : l < u) (hu : u ≤ 2 ^ 20) :
    Memory.MemorySystem.cachedVaddrs pluginFb (mulU32 l pageSize) (subU32 (mulU32 u pageSize) (mulU32 l pageSize)) =
      (List.range (u - l)).flatMap fun i => pageVaddrs pluginFb (l + i) := by
  have hstart : mulU32 l pageSize = l * 4096 := by
    unfold mulU32
    simp only [pageSize]
    omega
  have hsize : subU32 (mulU32 u pageSize) (l * 4096) = (u - l) * 4096 := by
    unfold subU32 mulU32
    simp only [pageSize]
    omega
  rw [hstart, hsize]
  unfold Memory.MemorySystem.cachedVaddrs
  simp only [pageSize]
  rw [if_neg (by omega)]
  have hnum : ((l * 4096 + (u - l) * 4096 + (2 ^ 32 - 1)) % 2 ^ 32 / 4096 + 2 ^ 32 - l * 4096 / 4096 + 1) % 2 ^ 32 =
      u - l := by omega
  rw [hnum]
  refine List.flatMap_congr ?_
  intro i hi
  have hi := List.mem_range.mp hi
  have haddr : (l * 4096 + i * 4096) % 2 ^ 32 = (l + i) * 4096 := by omega
  rw [haddr]
  rfl

theorem isCached_markPages {pluginFb l u : Nat} (hplugin : pluginFb % pageSize = 0) (hl : 0 < l) (hlu : l < u)
    (hu : u ≤ 2 ^ 20) (cached : Bool) (marker : RasterizerCacheMarker) (hvaddr : vaddr ∈ pageVaddrs pluginFb page) :
    (markPages pluginFb l u cached marker).isCached vaddr =
      if l ≤ page ∧ page < u then cached else marker.isCached vaddr := by
  unfold markPages markRegionCached
  simp only []
  rw [cachedVaddrs_pages hl hlu hu, ← vaddr_aligned hplugin hvaddr, isCached_foldl_mark]
  · congr 1
    rw [eq_iff_iff]
    constructor
    · rintro ⟨other, hother, heq⟩
      obtain ⟨i, hi, hother⟩ := List.mem_flatMap.mp hother
      have hi := List.mem_range.mp hi
      have hsame : other = vaddr := by
        rw [← vaddr_aligned hplugin hother, ← vaddr_aligned hplugin hvaddr, heq]
      rw [hsame] at hother
      have hpage := page_unique hvaddr hother
      omega
    · intro h
      refine ⟨vaddr, List.mem_flatMap.mpr ⟨page - l, List.mem_range.mpr (by omega), ?_⟩, rfl⟩
      rw [Nat.add_sub_cancel' h.1]
      exact hvaddr
  · intro other hother
    obtain ⟨i, -, hother⟩ := List.mem_flatMap.mp hother
    exact hasMarker_of_mem hother

end RasterizerCache

end SweepDSEmu.VideoCore
