import SweepDSEmu.VideoCore.CachedPages

/-!
# The bookkeeping of the rasterizer cache

`cached_pages` counts the registered surfaces of each page, the memory marks the pages with a positive count, and the
page table lists the registered surfaces of each of its own, larger pages.

This fails after `ClearAll`, which leaves the surfaces registered, and for surfaces with an empty or a wrapped interval:
a memory fill may ask for one.  `OpOk` excludes both, and surfaces on pages that the memory has no marks for.
-/

namespace SweepDSEmu.VideoCore

open Memory (RasterizerCacheMarker)

open Function

def SurfaceParams.OnMemory (params : SurfaceParams) (pluginFb : Nat) : Prop :=
  ∀ page, params.Meets 12 page → pageVaddrs pluginFb page ≠ []

namespace RasterizerCache

def registeredParams (s : RasterizerCache) (id : SurfaceId) : Option SurfaceParams :=
  match s.slotSurfaces.values id with
  | some surface => if surface.registered then some surface.params else none
  | none => none

def registeredMeets (s : RasterizerCache) (pageBits page : Nat) (id : SurfaceId) : Bool :=
  match s.registeredParams id with
  | some params => params.Meets pageBits page
  | none => false

def surfacesOfPage (s : RasterizerCache) (page : Nat) : Finset SurfaceId :=
  (Finset.range s.slotSurfaces.valuesCapacity).filter fun id => s.registeredMeets 12 page id

def PageMarked (s : RasterizerCache) (page : Nat) : Prop :=
  pageVaddrs s.pluginFbAddress page ≠ [] ∧
    ∀ vaddr ∈ pageVaddrs s.pluginFbAddress page, s.cacheMarker.isCached vaddr = true

def PageUnmarked (s : RasterizerCache) (page : Nat) : Prop :=
  ∀ vaddr ∈ pageVaddrs s.pluginFbAddress page, s.cacheMarker.isCached vaddr = false

structure Bookkeeping (s : RasterizerCache) : Prop where
  counts : ∀ page, s.cachedPages.count page = (s.surfacesOfPage page).card
  marks : ∀ page, if 0 < (s.surfacesOfPage page).card then s.PageMarked page else s.PageUnmarked page
  lists : ∀ page, ((s.pageTable page).getD []).Nodup ∧
    ∀ id, id ∈ (s.pageTable page).getD [] ↔ s.registeredMeets citraPageBits page id = true

def Sound (marks : Prop) (s : RasterizerCache) (params : SurfaceParams) : Prop :=
  params.Proper ∧ (marks → params.OnMemory s.pluginFbAddress)

def OpOk (marks : Prop) (s : RasterizerCache) : Op → Prop
  | .registerSurface id => id ∉ s.sentenced.map Prod.fst ∧
    ∀ surface, s.slotSurfaces.values id = some surface → Sound marks s surface.params
  | .accelerateFill startAddr endAddr => Sound marks s (fillParams startAddr endAddr)
  | .getSurface params _ _ _ => Sound marks s params
  | .getSurfaceSubRect params _ _ _ _ => ∀ newParams, subRectParams params = .ok newParams → Sound marks s newParams
  | .clearAll _ => ∀ id params, s.registeredParams id = some params → params.size = 0
  | _ => True

inductive Run : RasterizerCache → Prop where
  | init (pluginFb : Nat) : pluginFb % pageSize = 0 → Run (create pluginFb)
  | step {s s' : RasterizerCache} (op : Op) : Run s → OpOk True s op → s.exec op = .ok s' → Run s'

structure Tracked (s : RasterizerCache) : Prop where
  counts : ∀ page, s.cachedPages.count page = (s.surfacesOfPage page).card
  lists : ∀ page, ((s.pageTable page).getD []).Nodup ∧
    ∀ id, id ∈ (s.pageTable page).getD [] ↔ s.registeredMeets citraPageBits page id = true
  proper : ∀ id params, s.registeredParams id = some params → params.Proper
  sentencedNodup : (s.sentenced.map Prod.fst).Nodup
  sentenced : ∀ id ∈ s.sentenced.map Prod.fst, ∃ surface, s.slotSurfaces.values id = some surface ∧
    surface.registered = false ∧ surface.params.Proper

def MarksFollow (pluginFb : Nat) (marker : RasterizerCacheMarker) (m : IntervalMap Int) : Prop :=
  ∀ page, ∀ vaddr ∈ pageVaddrs pluginFb page, marker.isCached vaddr = decide (0 < m.count page)

structure Marked (s : RasterizerCache) : Prop where
  plugin : s.pluginFbAddress % pageSize = 0
  marks : MarksFollow s.pluginFbAddress s.cacheMarker s.cachedPages
  onMemory : ∀ id params, s.registeredParams id = some params → params.OnMemory s.pluginFbAddress
  sentencedOnMemory : ∀ id ∈ s.sentenced.map Prod.fst, ∀ surface, s.slotSurfaces.values id = some surface →
    surface.params.OnMemory s.pluginFbAddress

structure Kept (marks : Prop) (s : RasterizerCache) : Prop where
  tracked : Tracked s
  marked : marks → Marked s

section Registered

variable {s s' : RasterizerCache} {id : SurfaceId}

theorem registeredParams_eq_some {params : SurfaceParams} :
    s.registeredParams id = some params ↔
      ∃ surface, s.slotSurfaces.values id = some surface ∧ surface.registered = true ∧ surface.params = params := by
  unfold registeredParams
  cases s.slotSurfaces.values id with
  | none => simp
  | some surface => simp

theorem registeredParams_eq_none_iff :
    s.registeredParams id = none ↔ ∀ surface, s.slotSurfaces.values id = some surface → surface.registered = false := by
  unfold registeredParams
  cases s.slotSurfaces.values id with
  | none => simp
  | some surface => simp

theorem registeredMeets_iff {pageBits page : Nat} :
    s.registeredMeets pageBits page id = true ↔
      ∃ params, s.registeredParams id = some params ∧ params.Meets pageBits page := by
  unfold registeredMeets
  cases s.registeredParams id with
  | none => simp
  | some params => simp

theorem mem_surfacesOfPage {page : Nat} : id ∈ s.surfacesOfPage page ↔ s.registeredMeets 12 page id = true := by
  unfold surfacesOfPage
  rw [Finset.mem_filter, Finset.mem_range]
  constructor
  · exact fun h => h.2
  · intro h
    obtain ⟨params, hparams, -⟩ := registeredMeets_iff.mp h
    obtain ⟨surface, hsurface, -⟩ := registeredParams_eq_some.mp hparams
    exact ⟨s.slotSurfaces.bound id surface hsurface, h⟩

theorem registeredMeets_congr (h : s'.registeredParams id = s.registeredParams id) (pageBits page : Nat) :
    s'.registeredMeets pageBits page id = s.registeredMeets pageBits page id := by
  unfold registeredMeets
  rw [h]

theorem surfacesOfPage_congr (h : ∀ id, s'.registeredParams id = s.registeredParams id) (page : Nat) :
    s'.surfacesOfPage page = s.surfacesOfPage page := by
  ext id
  rw [mem_surfacesOfPage, mem_surfacesOfPage, registeredMeets_congr (h id)]

theorem count_nonneg (h : Tracked s) (page : Nat) : 0 ≤ s.cachedPages.count page := by
  rw [h.counts]
  exact Int.natCast_nonneg _

end Registered

theorem Kept.bookkeeping {s : RasterizerCache} (h : Kept True s) : Bookkeeping s := by
  have hm := h.marked trivial
  refine ⟨h.tracked.counts, ?_, h.tracked.lists⟩
  intro page
  have hcount := h.tracked.counts page
  split_ifs with hpos
  · constructor
    · obtain ⟨id, hid⟩ := Finset.card_pos.mp hpos
      obtain ⟨params, hparams, hmeets⟩ := registeredMeets_iff.mp (mem_surfacesOfPage.mp hid)
      exact hm.onMemory id params hparams page hmeets
    · intro vaddr hvaddr
      rw [hm.marks page vaddr hvaddr, hcount]
      simpa using hpos
  · intro vaddr hvaddr
    rw [hm.marks page vaddr hvaddr, hcount]
    simpa using hpos

theorem Kept.ofSlots {marks : Prop} {s s' : RasterizerCache} (h : Kept marks s)
    (hreg : ∀ id, s'.registeredParams id = s.registeredParams id) (hcached : s'.cachedPages = s.cachedPages)
    (htable : s'.pageTable = s.pageTable) (hmarker : s'.cacheMarker = s.cacheMarker)
    (hplugin : s'.pluginFbAddress = s.pluginFbAddress) (hnodup : (s'.sentenced.map Prod.fst).Nodup)
    (hsent : ∀ id ∈ s'.sentenced.map Prod.fst, ∃ surface, s'.slotSurfaces.values id = some surface ∧
      surface.registered = false ∧ Sound marks s surface.params) : Kept marks s' := by
  constructor
  · refine ⟨?_, ?_, ?_, hnodup, ?_⟩
    · intro page
      rw [hcached, surfacesOfPage_congr hreg]
      exact h.tracked.counts page
    · intro page
      rw [htable]
      refine ⟨(h.tracked.lists page).1, ?_⟩
      intro id
      rw [registeredMeets_congr (hreg id)]
      exact (h.tracked.lists page).2 id
    · intro id params hparams
      rw [hreg] at hparams
      exact h.tracked.proper id params hparams
    · intro id hid
      obtain ⟨surface, hs, hunreg, hsound⟩ := hsent id hid
      exact ⟨surface, hs, hunreg, hsound.1⟩
  · intro hmarks
    have hm := h.marked hmarks
    refine ⟨?_, ?_, ?_, ?_⟩
    · rw [hplugin]
      exact hm.plugin
    · rw [hplugin, hmarker, hcached]
      exact hm.marks
    · intro id params hparams
      rw [hreg] at hparams
      rw [hplugin]
      exact hm.onMemory id params hparams
    · intro id hid surface hs
      obtain ⟨surface', hs', -, hsound⟩ := hsent id hid
      rw [hs, Option.some.injEq] at hs'
      rw [hplugin, hs']
      exact hsound.2 hmarks

theorem Kept.sentenced {marks : Prop} {s : RasterizerCache} (h : Kept marks s) {id : SurfaceId}
    (hid : id ∈ s.sentenced.map Prod.fst) : ∃ surface, s.slotSurfaces.values id = some surface ∧
      surface.registered = false ∧ Sound marks s surface.params := by
  obtain ⟨surface, hs, hreg, hproper⟩ := h.tracked.sentenced id hid
  exact ⟨surface, hs, hreg, hproper, fun hm => (h.marked hm).sentencedOnMemory id hid surface hs⟩

theorem Kept.sound {marks : Prop} {s : RasterizerCache} (h : Kept marks s) {id : SurfaceId} {surface : Surface}
    (hs : s.slotSurfaces.values id = some surface) (hreg : surface.registered = true) :
    Sound marks s surface.params := by
  have hparams := registeredParams_eq_some.mpr ⟨surface, hs, hreg, rfl⟩
  exact ⟨h.tracked.proper id _ hparams, fun hm => (h.marked hm).onMemory id _ hparams⟩

def view (s : RasterizerCache) (id : SurfaceId) : Option (SurfaceParams × Bool) :=
  (s.slotSurfaces.values id).map fun surface => (surface.params, surface.registered)

/-- The two states agree up to valid regions, dirty regions and downloads. -/
structure KeepsPages (s s' : RasterizerCache) : Prop where
  view : ∀ id, s'.view id = s.view id
  pageTable : s'.pageTable = s.pageTable
  sentenced : s'.sentenced = s.sentenced
  cachedPages : s'.cachedPages = s.cachedPages
  cacheMarker : s'.cacheMarker = s.cacheMarker
  pluginFbAddress : s'.pluginFbAddress = s.pluginFbAddress

namespace KeepsPages

variable {s s' s'' : RasterizerCache}

theorem refl (s : RasterizerCache) : KeepsPages s s := ⟨fun _ => rfl, rfl, rfl, rfl, rfl, rfl⟩

theorem trans (h : KeepsPages s s') (h' : KeepsPages s' s'') : KeepsPages s s'' :=
  ⟨fun id => (h'.view id).trans (h.view id), h'.pageTable.trans h.pageTable, h'.sentenced.trans h.sentenced,
    h'.cachedPages.trans h.cachedPages, h'.cacheMarker.trans h.cacheMarker,
    h'.pluginFbAddress.trans h.pluginFbAddress⟩

theorem surface (h : KeepsPages s s') {id : SurfaceId} {surface : Surface}
    (hs : s.slotSurfaces.values id = some surface) :
    ∃ surface', s'.slotSurfaces.values id = some surface' ∧ surface'.params = surface.params ∧
      surface'.registered = surface.registered := by
  have hview := h.view id
  unfold RasterizerCache.view at hview
  rw [hs, Option.map_some] at hview
  obtain ⟨surface', hs', heq⟩ := Option.map_eq_some_iff.mp hview
  rw [Prod.mk.injEq] at heq
  exact ⟨surface', hs', heq.1, heq.2⟩

theorem symm (h : KeepsPages s s') : KeepsPages s' s :=
  ⟨fun id => (h.view id).symm, h.pageTable.symm, h.sentenced.symm, h.cachedPages.symm, h.cacheMarker.symm,
    h.pluginFbAddress.symm⟩

theorem registeredParams (h : KeepsPages s s') (id : SurfaceId) :
    s'.registeredParams id = s.registeredParams id := by
  ext params
  rw [registeredParams_eq_some, registeredParams_eq_some]
  constructor
  · rintro ⟨surface, hs, hreg, rfl⟩
    obtain ⟨surface', hs', hparams, hreg'⟩ := h.symm.surface hs
    exact ⟨surface', hs', hreg'.trans hreg, hparams⟩
  · rintro ⟨surface, hs, hreg, rfl⟩
    obtain ⟨surface', hs', hparams, hreg'⟩ := h.surface hs
    exact ⟨surface', hs', hreg'.trans hreg, hparams⟩

theorem kept {marks : Prop} (h : KeepsPages s s') (hk : Kept marks s) : Kept marks s' := by
  refine hk.ofSlots h.registeredParams h.cachedPages h.pageTable h.cacheMarker h.pluginFbAddress ?_ ?_
  · rw [h.sentenced]
    exact hk.tracked.sentencedNodup
  · intro id hid
    rw [h.sentenced] at hid
    obtain ⟨surface, hs, hreg, hsound⟩ := hk.sentenced hid
    obtain ⟨surface', hs', hparams, hreg'⟩ := h.surface hs
    exact ⟨surface', hs', hreg'.trans hreg, hparams ▸ hsound⟩

theorem modifySurface (s : RasterizerCache) (id : SurfaceId) {f : Surface → Surface}
    (hf : ∀ surface, s.slotSurfaces.values id = some surface →
      (f surface).params = surface.params ∧ (f surface).registered = surface.registered) :
    KeepsPages s (s.modifySurface id f) := by
  refine ⟨?_, rfl, rfl, rfl, rfl, rfl⟩
  intro other
  unfold RasterizerCache.view RasterizerCache.modifySurface
  simp only [SlotVector.modify_values]
  by_cases hid : other = id
  · subst hid
    rw [update_self]
    cases hs : s.slotSurfaces.values other with
    | none => rfl
    | some surface =>
      obtain ⟨h1, h2⟩ := hf surface hs
      simp [h1, h2]
  · rw [update_of_ne hid]

end KeepsPages

@[simp] theorem modifySurface_pageTable (s : RasterizerCache) (id : SurfaceId) (f : Surface → Surface) :
    (s.modifySurface id f).pageTable = s.pageTable := rfl

private theorem updatePages_foldlM (pluginFb l u : Nat) {delta : Int} (hdelta : delta = 1 ∨ delta = -1)
    {segments : List (Segment Int)} (hvalue : ∀ segment ∈ segments, 0 ≤ segment.value)
    (marker : RasterizerCacheMarker) :
    ∃ marker', segments.foldlM (updatePages pluginFb l u delta) marker = .ok marker' ∧
      (pluginFb % pageSize = 0 →
        (∀ segment ∈ segments, 0 < max segment.lower l ∧ max segment.lower l < min segment.upper u) → u ≤ 2 ^ 20 →
        ∀ page, ∀ vaddr ∈ pageVaddrs pluginFb page, marker'.isCached vaddr =
          if ∃ segment ∈ segments, segment.value = 1 ∧ max segment.lower l ≤ page ∧ page < min segment.upper u
          then decide (0 < delta) else marker.isCached vaddr) := by
  induction segments generalizing marker with
  | nil => exact ⟨marker, rfl, fun _ _ _ page vaddr _ => by simp⟩
  | cons segment segments ih =>
    have hrest := ih fun t ht => hvalue t (List.mem_cons_of_mem _ ht)
    rw [List.foldlM_cons]
    by_cases hone : segment.value = 1
    · -- the pages of the segment are marked or unmarked
      have hstep : updatePages pluginFb l u delta marker segment = .ok (markPages pluginFb (max segment.lower l)
          (min segment.upper u) (decide (0 < delta)) marker) := by
        unfold updatePages
        rcases hdelta with rfl | rfl
        · simp [hone]
        · simp [hone]
      obtain ⟨marker', hfold, hmarks⟩ := hrest (markPages pluginFb (max segment.lower l) (min segment.upper u)
        (decide (0 < delta)) marker)
      refine ⟨marker', ?_, ?_⟩
      · rw [hstep]
        exact hfold
      · intro hplugin hbounds hu page vaddr hvaddr
        obtain ⟨hpos, hlt⟩ := hbounds segment List.mem_cons_self
        rw [hmarks hplugin (fun t ht => hbounds t (List.mem_cons_of_mem _ ht)) hu page vaddr hvaddr,
          isCached_markPages hplugin hpos hlt (by omega) _ _ hvaddr]
        simp only [List.mem_cons, exists_eq_or_imp, hone, true_and]
        by_cases hin : max segment.lower l ≤ page ∧ page < min segment.upper u
        · rw [if_pos hin, if_pos (Or.inl hin), ite_self]
        · rw [if_neg hin]
          simp only [hin, false_or]
    · have hstep : updatePages pluginFb l u delta marker segment = .ok marker := by
        have hnonneg := hvalue segment List.mem_cons_self
        unfold updatePages
        rcases hdelta with rfl | rfl
        · simp [hone, hnonneg]
        · simp [hone, hnonneg]
      obtain ⟨marker', hfold, hmarks⟩ := hrest marker
      refine ⟨marker', ?_, ?_⟩
      · rw [hstep]
        exact hfold
      · intro hplugin hbounds hu page vaddr hvaddr
        rw [hmarks hplugin (fun t ht => hbounds t (List.mem_cons_of_mem _ ht)) hu page vaddr hvaddr]
        simp [hone]

private theorem count_of_mem_range {m : IntervalMap Int} {segment : Segment Int} {l u : Nat}
    (hs : segment ∈ m.range l u) {page : Nat} (h : max segment.lower l ≤ page) (h' : page < min segment.upper u) :
    m.count page = segment.value := by
  unfold IntervalMap.count
  rw [IntervalMap.get?_of_mem (IntervalMap.mem_range.mp hs).1 (by omega) (by omega), Option.getD_some]

private theorem exists_segment_iff {m : IntervalMap Int} {l u page : Nat} :
    (∃ segment ∈ m.range l u, segment.value = 1 ∧ max segment.lower l ≤ page ∧ page < min segment.upper u) ↔
      (l ≤ page ∧ page < u) ∧ m.count page = 1 := by
  constructor
  · rintro ⟨segment, hs, hone, h, h'⟩
    exact ⟨by omega, (count_of_mem_range hs h h').trans hone⟩
  · rintro ⟨hpage, hcount⟩
    have hget : m.get? page = some 1 := by
      unfold IntervalMap.count at hcount
      cases hm : m.get? page with
      | none => simp [hm] at hcount
      | some c =>
        rw [hm, Option.getD_some] at hcount
        rw [hcount]
    obtain ⟨segment, hs, h, h', hvalue⟩ := IntervalMap.get?_eq_some.mp hget
    exact ⟨segment, IntervalMap.mem_range.mpr ⟨hs, by omega⟩, hvalue, by omega, by omega⟩

private theorem updateMarks {s : RasterizerCache} {params : SurfaceParams} (hproper : params.Proper) {delta : Int}
    (hdelta : delta = 1 ∨ delta = -1) {m : IntervalMap Int} (hcount : ∀ page, 0 ≤ m.count page) :
    ∃ marker', (m.range (params.addr / pageSize) (pageEndOf params.addr params.size)).foldlM
        (updatePages s.pluginFbAddress (params.addr / pageSize) (pageEndOf params.addr params.size) delta)
        s.cacheMarker = .ok marker' ∧
      (s.pluginFbAddress % pageSize = 0 → params.OnMemory s.pluginFbAddress →
        ∀ page, ∀ vaddr ∈ pageVaddrs s.pluginFbAddress page, marker'.isCached vaddr =
          if params.Meets 12 page ∧ m.count page = 1 then decide (0 < delta) else s.cacheMarker.isCached vaddr) := by
  have hvalue : ∀ segment ∈ m.range (params.addr / pageSize) (pageEndOf params.addr params.size), 0 ≤ segment.value := by
    intro segment hs
    rw [← count_of_mem_range hs le_rfl (IntervalMap.mem_range.mp hs).2]
    exact hcount _
  obtain ⟨marker', hfold, hmarks⟩ := updatePages_foldlM s.pluginFbAddress (params.addr / pageSize)
    (pageEndOf params.addr params.size) hdelta hvalue s.cacheMarker
  refine ⟨marker', hfold, ?_⟩
  intro hplugin hmemory page vaddr hvaddr
  rw [hmarks hplugin ?_ (pageEndOf_le hproper) page vaddr hvaddr]
  · simp only [exists_segment_iff, mem_countedPages hproper]
  · intro segment hs
    have hlt := (IntervalMap.mem_range.mp hs).2
    -- the first page of the part belongs to the surface, so it is not page zero
    have hmeets : params.Meets 12 (max segment.lower (params.addr / pageSize)) :=
      (mem_countedPages hproper).mp ⟨by omega, by omega⟩
    obtain ⟨vaddr, hvaddr⟩ := List.exists_mem_of_ne_nil _ (hmemory _ hmeets)
    exact ⟨page_pos hvaddr, hlt⟩

/-- `UpdatePagesCachedCount` changes the counts of the pages of the surface, and the marks follow. -/
theorem updatePagesCachedCount_ok {s : RasterizerCache} (hcount : ∀ page, 0 ≤ s.cachedPages.count page)
    {params : SurfaceParams} (hproper : params.Proper) {delta : Int} (hdelta : delta = 1 ∨ delta = -1) :
    ∃ marker' m', s.updatePagesCachedCount params.addr params.size delta = .ok { s with
        cacheMarker := marker'
        cachedPages := m' } ∧
      (∀ page, m'.count page =
        if params.Meets 12 page then s.cachedPages.count page + delta else s.cachedPages.count page) ∧
      (s.pluginFbAddress % pageSize = 0 → MarksFollow s.pluginFbAddress s.cacheMarker s.cachedPages →
        params.OnMemory s.pluginFbAddress → MarksFollow s.pluginFbAddress marker' m') := by
  have hadd : ∀ page, (s.cachedPages.add (params.addr / pageSize) (pageEndOf params.addr params.size) delta).count
      page = if params.Meets 12 page then s.cachedPages.count page + delta else s.cachedPages.count page := by
    intro page
    rw [IntervalMap.count_add]
    simp only [mem_countedPages hproper]
  rcases hdelta with rfl | rfl
  · have hcount' : ∀ page, 0 ≤ (s.cachedPages.add (params.addr / pageSize) (pageEndOf params.addr params.size)
        1).count page := by
      intro page
      have hpage := hcount page
      rw [hadd]
      split_ifs
      · omega
      · omega
    obtain ⟨marker', hfold, hmarks⟩ := updateMarks (s := s) hproper (Or.inl rfl) hcount'
    refine ⟨marker', _, ?_, hadd, ?_⟩
    · unfold updatePagesCachedCount
      simp only [gt_iff_lt, zero_lt_one, if_true]
      rw [hfold]
      rfl
    · intro hplugin hold hmemory page vaddr hvaddr
      have hpage := hcount page
      rw [hmarks hplugin hmemory page vaddr hvaddr, hold page vaddr hvaddr, hadd]
      by_cases hmeets : params.Meets 12 page
      · simp only [hmeets, if_true, true_and]
        split_ifs with hone
        · simp [hone]
        · rw [decide_eq_decide]
          omega
      · simp [hmeets]
  · obtain ⟨marker', hfold, hmarks⟩ := updateMarks (s := s) hproper (Or.inr rfl) hcount
    refine ⟨marker', _, ?_, hadd, ?_⟩
    · unfold updatePagesCachedCount
      simp only [show ¬ ((-1 : Int) > 0) by decide, if_false, show (-1 : Int) < 0 by decide, if_true]
      rw [hfold]
      rfl
    · intro hplugin hold hmemory page vaddr hvaddr
      have hpage := hcount page
      rw [hmarks hplugin hmemory page vaddr hvaddr, hold page vaddr hvaddr, hadd]
      by_cases hmeets : params.Meets 12 page
      · simp only [hmeets, if_true, true_and]
        split_ifs with hone
        · simp [hone]
        · rw [decide_eq_decide]
          omega
      · simp [hmeets]

theorem registerPage_foldl (id : SurfaceId) {pages : List Nat} (hnodup : pages.Nodup)
    (pageTable : Nat → Option (List SurfaceId)) (page : Nat) :
    (pages.foldl (registerPage id) pageTable) page =
      if page ∈ pages then some ((pageTable page).getD [] ++ [id]) else pageTable page := by
  induction pages generalizing pageTable with
  | nil => simp
  | cons first pages ih =>
    obtain ⟨hfirst, hnodup⟩ := List.nodup_cons.mp hnodup
    rw [List.foldl_cons, ih hnodup]
    unfold registerPage
    by_cases hpage : page = first
    · subst hpage
      rw [if_neg hfirst, if_pos List.mem_cons_self, update_self]
    · rw [update_of_ne hpage]
      simp [hpage]

private theorem unregisterPage_foldlM (id : SurfaceId) {pages : List Nat} (hnodup : pages.Nodup)
    {pageTable : Nat → Option (List SurfaceId)} (hmem : ∀ page ∈ pages, id ∈ (pageTable page).getD []) :
    ∃ pageTable', pages.foldlM (unregisterPage id) pageTable = .ok pageTable' ∧ ∀ page, pageTable' page =
      if page ∈ pages then some (((pageTable page).getD []).erase id) else pageTable page := by
  induction pages generalizing pageTable with
  | nil => exact ⟨pageTable, rfl, fun page => by simp⟩
  | cons first pages ih =>
    obtain ⟨hfirst, hnodup⟩ := List.nodup_cons.mp hnodup
    have hid := hmem first List.mem_cons_self
    obtain ⟨surfaces, hsurfaces⟩ : ∃ surfaces, pageTable first = some surfaces := by
      cases h : pageTable first with
      | none => simp [h] at hid
      | some surfaces => exact ⟨surfaces, rfl⟩
    rw [hsurfaces, Option.getD_some] at hid
    have hstep : unregisterPage id pageTable first =
        .ok (update pageTable first (some (surfaces.erase id))) := by
      unfold unregisterPage
      rw [hsurfaces]
      exact if_pos hid
    have hother : ∀ page ∈ pages, page ≠ first := by
      rintro page hpage rfl
      exact hfirst hpage
    have hmem' : ∀ page ∈ pages,
        id ∈ (update pageTable first (some (surfaces.erase id)) page).getD [] := by
      intro page hpage
      rw [update_of_ne (hother page hpage)]
      exact hmem page (List.mem_cons_of_mem _ hpage)
    obtain ⟨pageTable', hfold, htable⟩ := ih hnodup hmem'
    refine ⟨pageTable', ?_, ?_⟩
    · rw [List.foldlM_cons, hstep]
      exact hfold
    · intro page
      rw [htable]
      by_cases hpage : page = first
      · subst hpage
        rw [if_neg hfirst, if_pos List.mem_cons_self, update_self, hsurfaces, Option.getD_some]
      · rw [update_of_ne hpage]
        simp [hpage]

section Registration

variable {marks : Prop} {s s' : RasterizerCache} {id : SurfaceId} {surface : Surface}

private theorem surfacesOfPage_insert {params : SurfaceParams} (hnone : s.registeredParams id = none)
    (hparams : ∀ other, s'.registeredParams other = if other = id then some params else s.registeredParams other)
    (page : Nat) :
    ((s'.surfacesOfPage page).card : Int) =
      if params.Meets 12 page then ((s.surfacesOfPage page).card : Int) + 1 else (s.surfacesOfPage page).card := by
  have hid : id ∉ s.surfacesOfPage page := by
    intro hmem
    obtain ⟨p, hp, -⟩ := registeredMeets_iff.mp (mem_surfacesOfPage.mp hmem)
    rw [hnone] at hp
    cases hp
  split_ifs with hmeets
  · have hinsert : s'.surfacesOfPage page = insert id (s.surfacesOfPage page) := by
      ext other
      rw [Finset.mem_insert, mem_surfacesOfPage, mem_surfacesOfPage, registeredMeets_iff, registeredMeets_iff, hparams]
      by_cases hother : other = id
      · simp [hother, hmeets]
      · simp [hother]
    rw [hinsert, Finset.card_insert_of_notMem hid]
    push_cast
    rfl
  · have hsame : s'.surfacesOfPage page = s.surfacesOfPage page := by
      ext other
      rw [mem_surfacesOfPage, mem_surfacesOfPage, registeredMeets_iff, registeredMeets_iff, hparams]
      by_cases hother : other = id
      · simp [hother, hmeets, hnone]
      · simp [hother]
    rw [hsame]

theorem registeredParams_update {values : Option Surface}
    (hvalues : s'.slotSurfaces.values = update s.slotSurfaces.values id values) (other : SurfaceId) :
    s'.registeredParams other =
      if other = id then (values.bind fun surface => if surface.registered then some surface.params else none)
      else s.registeredParams other := by
  unfold registeredParams
  rw [hvalues]
  by_cases hother : other = id
  · subst hother
    rw [if_pos rfl, update_self]
    cases values with
    | none => rfl
    | some surface => rfl
  · rw [if_neg hother, update_of_ne hother]

private theorem Tracked.ofInsert (h : Tracked s) {params : SurfaceParams} (hnone : s.registeredParams id = none)
    (hproper : params.Proper) (hsent : id ∉ s.sentenced.map Prod.fst)
    (hparams : ∀ other, s'.registeredParams other = if other = id then some params else s.registeredParams other)
    (hcount : ∀ page, s'.cachedPages.count page =
      if params.Meets 12 page then s.cachedPages.count page + 1 else s.cachedPages.count page)
    (hlist : ∀ page, s'.pageTable page =
      if params.Meets citraPageBits page then some ((s.pageTable page).getD [] ++ [id]) else s.pageTable page)
    (hsentenced : s'.sentenced = s.sentenced)
    (hvalues : ∀ other ≠ id, s'.slotSurfaces.values other = s.slotSurfaces.values other) : Tracked s' := by
  refine ⟨?_, ?_, ?_, ?_, ?_⟩
  · intro page
    rw [hcount, surfacesOfPage_insert hnone hparams, h.counts]
  · intro page
    obtain ⟨hnodup, hmem⟩ := h.lists page
    have hnot : id ∉ (s.pageTable page).getD [] := by
      intro hin
      obtain ⟨p, hp, -⟩ := registeredMeets_iff.mp ((hmem id).mp hin)
      rw [hnone] at hp
      cases hp
    rw [hlist]
    constructor
    · split_ifs
      · refine List.nodup_append'.mpr ⟨hnodup, List.nodup_singleton _, ?_⟩
        simpa using hnot
      · exact hnodup
    · intro other
      rw [registeredMeets_iff, hparams]
      by_cases hother : other = id
      · subst hother
        by_cases hmeets : params.Meets citraPageBits page
        · simp [hmeets]
        · simp [hmeets, hnot]
      · rw [if_neg hother, ← registeredMeets_iff, ← hmem]
        by_cases hmeets : params.Meets citraPageBits page
        · simp [hmeets, hother]
        · simp [hmeets]
  · intro other params' hparams'
    rw [hparams] at hparams'
    split_ifs at hparams' with hother
    · cases hparams'
      exact hproper
    · exact h.proper other params' hparams'
  · rw [hsentenced]
    exact h.sentencedNodup
  · intro other hother
    rw [hsentenced] at hother
    have hne : other ≠ id := by
      rintro rfl
      exact hsent hother
    rw [hvalues other hne]
    exact h.sentenced other hother

private theorem registerSurface_eq (hs : s.slotSurfaces.values id = some surface) (hreg : surface.registered = false)
    {s₁ : RasterizerCache} (hupdate : (s.modifySurface id (Surface.setRegistered true)).updatePagesCachedCount
      surface.params.addr surface.params.size 1 = .ok s₁) :
    s.registerSurface id = .ok { s₁ with
      pageTable := (pagesOf surface.params.addr surface.params.size).foldl (registerPage id) s₁.pageTable } := by
  have hlook : s.surface id = .ok surface := by
    unfold RasterizerCache.surface
    rw [hs]
  unfold RasterizerCache.registerSurface
  rw [hlook, ok_bind, hreg, if_neg (by decide)]
  dsimp only
  rw [hupdate, ok_bind]

theorem Kept.registerSurface (h : Kept marks s) (hs : s.slotSurfaces.values id = some surface)
    (hreg : surface.registered = false) (hsound : Sound marks s surface.params)
    (hsent : id ∉ s.sentenced.map Prod.fst) :
    ∃ s', s.registerSurface id = .ok s' ∧ Kept marks s' ∧
      s'.dirtyRegions = s.dirtyRegions ∧ s'.downloads = s.downloads ∧ s'.sentenced = s.sentenced ∧
      s'.pluginFbAddress = s.pluginFbAddress ∧
      s'.slotSurfaces.values = update s.slotSurfaces.values id (some (surface.setRegistered true)) := by
  have hnone : s.registeredParams id = none := registeredParams_eq_none_iff.mpr fun other hother => by
    rw [hs, Option.some.injEq] at hother
    rw [← hother, hreg]
  obtain ⟨hproper, hmemory⟩ := hsound
  have hcount := count_nonneg h.tracked
  obtain ⟨marker', m', hupdate, hcount', hmarks⟩ := updatePagesCachedCount_ok
    (s := s.modifySurface id (Surface.setRegistered true)) hcount hproper (Or.inl rfl)
  obtain ⟨s', hs', hs'eq⟩ : ∃ s', s.registerSurface id = .ok s' ∧ s' = { s.modifySurface id (Surface.setRegistered true) with
      cacheMarker := marker'
      cachedPages := m'
      pageTable := (pagesOf surface.params.addr surface.params.size).foldl (registerPage id) s.pageTable } :=
    ⟨_, registerSurface_eq hs hreg hupdate, rfl⟩
  have hvalues : s'.slotSurfaces.values =
      update s.slotSurfaces.values id (some (surface.setRegistered true)) := by
    rw [hs'eq]
    show (s.slotSurfaces.modify id _).values = _
    rw [SlotVector.modify_values, hs, Option.map_some]
  have htable : ∀ page, s'.pageTable page =
      if surface.params.Meets citraPageBits page then some ((s.pageTable page).getD [] ++ [id]) else s.pageTable page := by
    intro page
    have hfold := registerPage_foldl id (nodup_pagesOf surface.params.addr surface.params.size) s.pageTable page
    simp only [mem_pagesOf hproper] at hfold
    rw [hs'eq]
    exact hfold
  have hparams := registeredParams_update hvalues
  have hcached : s'.cachedPages = m' := by rw [hs'eq]
  have hmarker : s'.cacheMarker = marker' := by rw [hs'eq]
  have hplugin : s'.pluginFbAddress = s.pluginFbAddress := by rw [hs'eq]; rfl
  have hsentenced : s'.sentenced = s.sentenced := by rw [hs'eq]; rfl
  have hother : ∀ other ≠ id, s'.slotSurfaces.values other = s.slotSurfaces.values other := by
    intro other hother
    rw [hvalues, update_of_ne hother]
  refine ⟨s', hs', ⟨?_, ?_⟩, by rw [hs'eq]; rfl, by rw [hs'eq]; rfl, hsentenced, hplugin, hvalues⟩
  · refine Tracked.ofInsert h.tracked hnone hproper hsent hparams ?_ htable hsentenced hother
    rw [hcached]
    exact hcount'
  · intro hmarked
    have hm := h.marked hmarked
    refine ⟨?_, ?_, ?_, ?_⟩
    · rw [hplugin]
      exact hm.plugin
    · rw [hplugin, hmarker, hcached]
      exact hmarks hm.plugin hm.marks (hmemory hmarked)
    · intro other params hother
      rw [hparams] at hother
      rw [hplugin]
      split_ifs at hother with hid
      · cases hother
        exact hmemory hmarked
      · exact hm.onMemory other params hother
    · intro other hmem surface' hsurface'
      rw [hsentenced] at hmem
      have hne : other ≠ id := by
        rintro rfl
        exact hsent hmem
      rw [hother other hne] at hsurface'
      rw [hplugin]
      exact hm.sentencedOnMemory other hmem surface' hsurface'

private theorem Tracked.ofErase (h : Tracked s) {params : SurfaceParams} (hsome : s.registeredParams id = some params)
    (hparams : ∀ other, s'.registeredParams other = if other = id then none else s.registeredParams other)
    (hcount : ∀ page, s'.cachedPages.count page =
      if params.Meets 12 page then s.cachedPages.count page + -1 else s.cachedPages.count page)
    (hlist : ∀ page, (s'.pageTable page).getD [] = ((s.pageTable page).getD []).erase id)
    (hsentenced : s'.sentenced = s.sentenced)
    (hvalues : ∀ other ≠ id, s'.slotSurfaces.values other = s.slotSurfaces.values other) : Tracked s' := by
  have hnone : s'.registeredParams id = none := by rw [hparams, if_pos rfl]
  have hback : ∀ other, s.registeredParams other = if other = id then some params else s'.registeredParams other := by
    intro other
    by_cases hother : other = id
    · rw [if_pos hother, hother, hsome]
    · rw [if_neg hother, hparams, if_neg hother]
  refine ⟨?_, ?_, ?_, ?_, ?_⟩
  · intro page
    have hcard := surfacesOfPage_insert hnone hback page
    rw [hcount, h.counts]
    split_ifs at hcard ⊢
    · omega
    · exact hcard
  · intro page
    obtain ⟨hnodup, hmem⟩ := h.lists page
    rw [hlist]
    refine ⟨hnodup.erase id, ?_⟩
    intro other
    rw [hnodup.mem_erase_iff, hmem, registeredMeets_iff, registeredMeets_iff, hparams]
    by_cases hother : other = id
    · simp [hother]
    · simp [hother]
  · intro other params' hparams'
    rw [hparams] at hparams'
    split_ifs at hparams' with hother
    exact h.proper other params' hparams'
  · rw [hsentenced]
    exact h.sentencedNodup
  · intro other hother
    rw [hsentenced] at hother
    have hne : other ≠ id := by
      rintro rfl
      obtain ⟨surface, hs, hreg, -⟩ := h.sentenced other hother
      obtain ⟨surface', hs', hreg', -⟩ := registeredParams_eq_some.mp hsome
      rw [hs, Option.some.injEq] at hs'
      rw [← hs', hreg] at hreg'
      cases hreg'
    rw [hvalues other hne]
    exact h.sentenced other hother

private theorem Kept.withdraw (h : Kept marks s) (hs : s.slotSurfaces.values id = some surface)
    (hreg : surface.registered = true) :
    ∃ marker' m' pageTable',
      (s.modifySurface id (Surface.setRegistered false)).updatePagesCachedCount surface.params.addr
        surface.params.size (-1) = .ok { s.modifySurface id (Surface.setRegistered false) with
          cacheMarker := marker'
          cachedPages := m' } ∧
      (pagesOf surface.params.addr surface.params.size).foldlM (unregisterPage id) s.pageTable = .ok pageTable' ∧
      (∀ page, (pageTable' page).getD [] = ((s.pageTable page).getD []).erase id) ∧
      Kept marks { s.modifySurface id (Surface.setRegistered false) with
        cacheMarker := marker'
        cachedPages := m'
        pageTable := pageTable' } := by
  have hsome := registeredParams_eq_some.mpr ⟨surface, hs, hreg, rfl⟩
  obtain ⟨hproper, hmemory⟩ := h.sound hs hreg
  have hcount := count_nonneg h.tracked
  obtain ⟨marker', m', hupdate, hcount', hmarks⟩ := updatePagesCachedCount_ok
    (s := s.modifySurface id (Surface.setRegistered false)) hcount hproper (Or.inr rfl)
  have hlisted : ∀ page, id ∈ (s.pageTable page).getD [] ↔ page ∈ pagesOf surface.params.addr surface.params.size := by
    intro page
    rw [(h.tracked.lists page).2, registeredMeets_iff, hsome, mem_pagesOf hproper]
    simp
  obtain ⟨pageTable', hfold, htable⟩ := unregisterPage_foldlM id
    (nodup_pagesOf surface.params.addr surface.params.size) (fun page hpage => (hlisted page).mpr hpage)
  have herase : ∀ page, (pageTable' page).getD [] = ((s.pageTable page).getD []).erase id := by
    intro page
    rw [htable]
    split_ifs with hpage
    · rfl
    · rw [List.erase_of_not_mem fun hin => hpage ((hlisted page).mp hin)]
  refine ⟨marker', m', pageTable', hupdate, hfold, herase, ?_⟩
  obtain ⟨s', hs'eq⟩ : ∃ s', s' = { s.modifySurface id (Surface.setRegistered false) with
      cacheMarker := marker'
      cachedPages := m'
      pageTable := pageTable' } := ⟨_, rfl⟩
  rw [← hs'eq]
  have hvalues : s'.slotSurfaces.values =
      update s.slotSurfaces.values id (some (surface.setRegistered false)) := by
    rw [hs'eq]
    show (s.slotSurfaces.modify id _).values = _
    rw [SlotVector.modify_values, hs, Option.map_some]
  have hparams := registeredParams_update hvalues
  have hcached : s'.cachedPages = m' := by rw [hs'eq]
  have hmarker : s'.cacheMarker = marker' := by rw [hs'eq]
  have hplugin : s'.pluginFbAddress = s.pluginFbAddress := by rw [hs'eq]; rfl
  have hsentenced : s'.sentenced = s.sentenced := by rw [hs'eq]; rfl
  have hother : ∀ other ≠ id, s'.slotSurfaces.values other = s.slotSurfaces.values other := by
    intro other hother
    rw [hvalues, update_of_ne hother]
  have htracked : Tracked s' := by
    refine Tracked.ofErase h.tracked hsome hparams ?_ ?_ hsentenced hother
    · rw [hcached]
      exact hcount'
    · rw [hs'eq]
      exact herase
  refine ⟨htracked, ?_⟩
  intro hmarked
  have hm := h.marked hmarked
  refine ⟨?_, ?_, ?_, ?_⟩
  · rw [hplugin]
    exact hm.plugin
  · rw [hplugin, hmarker, hcached]
    exact hmarks hm.plugin hm.marks (hmemory hmarked)
  · intro other params hother
    rw [hparams] at hother
    rw [hplugin]
    split_ifs at hother with hid
    · cases hother
    · exact hm.onMemory other params hother
  · intro other hmem surface' hsurface'
    rw [hsentenced] at hmem
    have hne : other ≠ id := by
      rintro rfl
      obtain ⟨surface₁, hs₁, hreg₁, -⟩ := h.tracked.sentenced other hmem
      rw [hs, Option.some.injEq] at hs₁
      rw [← hs₁, hreg] at hreg₁
      cases hreg₁
    rw [hother other hne] at hsurface'
    rw [hplugin]
    exact hm.sentencedOnMemory other hmem surface' hsurface'

theorem Kept.eraseSurface (h : Kept marks s) (hs : s.slotSurfaces.values id = some surface)
    (hreg : surface.registered = false) {sentenced : List (SurfaceId × Nat)}
    (hnodup : (sentenced.map Prod.fst).Nodup) (hsub : ∀ other ∈ sentenced.map Prod.fst,
      other ∈ s.sentenced.map Prod.fst ∧ other ≠ id) :
    ∃ slots, s.eraseSurface id = .ok { s with slotSurfaces := slots } ∧
      slots.values = update s.slotSurfaces.values id none ∧
      Kept marks { s with slotSurfaces := slots, sentenced := sentenced } := by
  have hsome : (s.slotSurfaces.values id).isSome := by rw [hs]; rfl
  refine ⟨s.slotSurfaces.erase id hsome, dif_pos hsome, rfl, ?_⟩
  refine h.ofSlots ?_ rfl rfl rfl rfl hnodup ?_
  · intro other
    have hvalues : (s.slotSurfaces.erase id hsome).values = update s.slotSurfaces.values id none := rfl
    rw [registeredParams_update (s := s) hvalues]
    by_cases hother : other = id
    · rw [if_pos hother, hother, registeredParams_eq_none_iff.mpr]
      · rfl
      · intro surface' hs'
        rw [hs, Option.some.injEq] at hs'
        rw [← hs', hreg]
    · rw [if_neg hother]
  · intro other hother
    obtain ⟨hmem, hne⟩ := hsub other hother
    show ∃ surface, update s.slotSurfaces.values id none other = some surface ∧ _
    rw [update_of_ne hne]
    exact h.sentenced hmem

theorem Kept.unregisterSurface (h : Kept marks s) (hs : s.slotSurfaces.values id = some surface)
    (hreg : surface.registered = true) :
    ∃ s', s.unregisterSurface id = .ok s' ∧ Kept marks s' ∧ s'.dirtyRegions = s.dirtyRegions ∧
      s'.downloads = s.downloads ∧ s'.pluginFbAddress = s.pluginFbAddress ∧
      (∀ other ≠ id, s'.slotSurfaces.values other = s.slotSurfaces.values other) ∧ s'.registeredParams id = none ∧
      ∀ page, (s'.pageTable page).getD [] = ((s.pageTable page).getD []).erase id := by
  obtain ⟨marker', m', pageTable', hupdate, hfold, herase, hkept⟩ := h.withdraw hs hreg
  have hlook : s.surface id = .ok surface := by
    unfold RasterizerCache.surface
    rw [hs]
  obtain ⟨s₂, hs₂⟩ : ∃ s₂, s₂ = { s.modifySurface id (Surface.setRegistered false) with
      cacheMarker := marker'
      cachedPages := m'
      pageTable := pageTable' } := ⟨_, rfl⟩
  have hrun : s.unregisterSurface id =
      if surface.params.type ≠ .fill then .ok { s₂ with sentenced := s₂.sentenced ++ [(id, s₂.frameTick)] }
      else s₂.eraseSurface id := by
    unfold RasterizerCache.unregisterSurface
    rw [hlook, ok_bind, if_pos hreg]
    dsimp only
    rw [hupdate, ok_bind]
    dsimp only [modifySurface_pageTable]
    rw [hfold, ok_bind, hs₂]
  rw [← hs₂] at hkept
  have hvalues : s₂.slotSurfaces.values =
      update s.slotSurfaces.values id (some (surface.setRegistered false)) := by
    rw [hs₂]
    show (s.slotSurfaces.modify id _).values = _
    rw [SlotVector.modify_values, hs, Option.map_some]
  have hown : s₂.slotSurfaces.values id = some (surface.setRegistered false) := by rw [hvalues, update_self]
  have hothers : ∀ other ≠ id, s₂.slotSurfaces.values other = s.slotSurfaces.values other := by
    intro other hother
    rw [hvalues, update_of_ne hother]
  have hsentenced : s₂.sentenced = s.sentenced := by rw [hs₂]; rfl
  have hnot : id ∉ s₂.sentenced.map Prod.fst := by
    rw [hsentenced]
    intro hmem
    obtain ⟨surface', hs', hreg', -⟩ := h.sentenced hmem
    rw [hs, Option.some.injEq] at hs'
    rw [← hs', hreg] at hreg'
    cases hreg'
  have hdirty : s₂.dirtyRegions = s.dirtyRegions := by rw [hs₂]; rfl
  have hdownloads : s₂.downloads = s.downloads := by rw [hs₂]; rfl
  have hplugin : s₂.pluginFbAddress = s.pluginFbAddress := by rw [hs₂]; rfl
  have htable : ∀ page, (s₂.pageTable page).getD [] = ((s.pageTable page).getD []).erase id := by
    rw [hs₂]
    exact herase
  have hsound : Sound marks s₂ (surface.setRegistered false).params := by
    obtain ⟨hproper, hmemory⟩ := h.sound hs hreg
    refine ⟨hproper, ?_⟩
    rw [hplugin]
    exact hmemory
  by_cases htype : surface.params.type ≠ .fill
  · rw [if_pos htype] at hrun
    refine ⟨_, hrun, ?_, hdirty, hdownloads, hplugin, hothers, ?_, htable⟩
    · refine hkept.ofSlots (fun _ => rfl) rfl rfl rfl rfl ?_ ?_
      · rw [List.map_append]
        refine List.nodup_append'.mpr ⟨hkept.tracked.sentencedNodup, List.nodup_singleton _, ?_⟩
        simpa using hnot
      · intro other hother
        rw [List.map_append, List.mem_append] at hother
        rcases hother with hother | hother
        · exact hkept.sentenced hother
        · have hother : other = id := by simpa using hother
          rw [hother]
          exact ⟨_, hown, rfl, hsound⟩
    · refine registeredParams_eq_none_iff.mpr ?_
      intro surface' hs'
      have hs' := hown.symm.trans hs'
      rw [Option.some.injEq] at hs'
      rw [← hs']
      rfl
  · rw [if_neg htype] at hrun
    obtain ⟨slots, herased, hslots, hkept'⟩ := hkept.eraseSurface hown rfl hkept.tracked.sentencedNodup
      (by
        intro other hother
        refine ⟨hother, ?_⟩
        rintro rfl
        exact hnot hother)
    rw [herased] at hrun
    refine ⟨_, hrun, hkept', hdirty, hdownloads, hplugin, ?_, ?_, htable⟩
    · intro other hother
      show slots.values other = _
      rw [hslots, update_of_ne hother, hothers other hother]
    · refine registeredParams_eq_none_iff.mpr ?_
      intro surface' hs'
      have hs' : slots.values id = some surface' := hs'
      rw [hslots, update_self] at hs'
      cases hs'

end Registration

end RasterizerCache

end SweepDSEmu.VideoCore
