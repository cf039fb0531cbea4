import SweepDSEmu.Memory.PageTable
import SweepDSEmu.Lib.Outcome

/-!
# Consistency of the page tables

The type of a page, its pointer, its entry among the watchpoints and the marker of cached pages say the same, as long as
no page with a watchpoint is mapped again or unmapped and no watchpoint is set on a page that is not mapped.  Mapping
does not look at the watchpoints, and setting a watchpoint on a page that is not mapped does not end.

Every function goes page by page, so the invariant is one of pages (`PageOk`), and each turn of a loop keeps it.
-/

namespace SweepDSEmu.Memory

def PageType.IsWatchpoint (type : PageType) : Prop :=
  type = .memoryWatchpoint ∨ type = .rasterizerCachedMemoryWatchpoint

def PageType.IsCached (type : PageType) : Prop :=
  type = .rasterizerCachedMemory ∨ type = .rasterizerCachedMemoryWatchpoint

instance : DecidablePred PageType.IsWatchpoint := fun _ => inferInstanceAs (Decidable (_ ∨ _))

instance : DecidablePred PageType.IsCached := fun _ => inferInstanceAs (Decidable (_ ∨ _))

structure PageOk (marker : RasterizerCacheMarker) (t : PageTable) (page : Nat) : Prop where
  memory : t.attributes page = .memory ↔ t.pointers page ≠ none
  watchpoint : (t.attributes page).IsWatchpoint ↔ t.watchpointPagesMap page ≠ none
  cached : t.attributes page ≠ .unmapped →
    ((t.attributes page).IsCached ↔ marker.isCached (page * pageSize) = true)

def PagesOk (s : MemorySystem) : Prop := ∀ t ∈ s.pageTableList, ∀ page, PageOk s.cacheMarker t page

def PluginFbOk (pluginFb : Nat) : Prop :=
  pluginFb = 0 ∨ fcramPaddr ≤ pluginFb ∧ pluginFb + plugin3gxFbSize ≤ fcramPaddr + fcramN3dsSize

def Touches (addr stop page : Nat) : Prop := addr / pageSize ≤ page ∧ page * pageSize < stop

namespace MemorySystem

structure Mappable (s : MemorySystem) (table base size : Nat) : Prop where
  size_aligned : size % pageSize = 0
  base_aligned : base % pageSize = 0
  range : base + size ≤ 2 ^ 32
  unwatched : ∀ t, s.pageTableList[table]? = some t → ∀ page, base ≤ page * pageSize → page * pageSize < base + size →
    t.watchpointPagesMap page = none

def EndsBefore (addr size : Nat) : Prop := addr < addU32 addr size → addU32 addr size ≤ 2 ^ 32 - pageSize

/-- Each page is marked the other way when `RasterizerMarkRegionCached` gets to it. -/
def Alternates (cached : Bool) : RasterizerCacheMarker → List Nat → Prop
  | _, [] => True
  | marker, vaddr :: vaddrs => marker.isCached vaddr = !cached ∧ Alternates cached (marker.mark vaddr cached) vaddrs

def OpOk (s : MemorySystem) : Op → Prop
  | .mapMemoryRegion table base size _ => s.Mappable table base size
  | .unmapRegion table base size => s.Mappable table base size
  | .rasterizerMarkRegionCached start size cached =>
    Alternates cached s.cacheMarker (cachedVaddrs s.pluginFbAddress start size)
  | .registerWatchpoint table addr size => addr < 2 ^ 32 ∧ EndsBefore addr size ∧
    ∀ t, s.pageTableList[table]? = some t → ∀ page, Touches addr (addU32 addr size) page →
      t.attributes page ≠ .unmapped
  | .unregisterWatchpoint _ addr size => addr < 2 ^ 32 ∧ EndsBefore addr size

inductive Run : MemorySystem → Prop where
  | init (numTables pluginFb : Nat) : PluginFbOk pluginFb →
    Run ⟨List.replicate numTables PageTable.clear, ⟨fun _ => false⟩, pluginFb⟩
  | step {s s' : MemorySystem} (op : Op) : Run s → OpOk s op → exec s op = .ok s' → Run s'

end MemorySystem

/-- The memory behind a page can be found without the page table. -/
def Cacheable (pluginFb vaddr : Nat) : Prop :=
  InRegion linearHeapVaddr linearHeapSize vaddr ∨ InRegion newLinearHeapVaddr newLinearHeapSize vaddr ∨
    InRegion vramVaddr vramSize vaddr ∨ (InRegion plugin3gxFbVaddr plugin3gxFbSize vaddr ∧ pluginFb ≠ 0)

private theorem make_ok {backingMem : BackingMem} {offset : Nat} (h : offset ≤ backingMem.getSize) :
    MemoryRef.make backingMem offset = .ok ⟨backingMem, offset⟩ :=
  if_pos h

theorem Cacheable.getPointer {pluginFb vaddr : Nat} (hplugin : PluginFbOk pluginFb) (h : Cacheable pluginFb vaddr) :
    ∃ r, getPointerForRasterizerCache pluginFb vaddr = .ok r := by
  unfold getPointerForRasterizerCache
  split_ifs with hlinear hnew hvram hfb
  · refine ⟨_, make_ok ?_⟩
    unfold InRegion linearHeapSize at hlinear
    show _ ≤ fcramN3dsSize
    unfold fcramN3dsSize
    omega
  · refine ⟨_, make_ok ?_⟩
    unfold InRegion newLinearHeapSize at hnew
    show _ ≤ fcramN3dsSize
    unfold fcramN3dsSize
    omega
  · refine ⟨_, make_ok ?_⟩
    unfold InRegion at hvram
    show _ ≤ vramSize
    omega
  · refine ⟨_, make_ok ?_⟩
    unfold PluginFbOk at hplugin
    unfold InRegion at hfb
    show _ ≤ fcramN3dsSize
    omega
  · exfalso
    rcases h with h | h | h | h
    · exact hlinear h
    · exact hnew h
    · exact hvram h
    · exact hfb h

theorem cacheable_of_mem {pluginFb addr vaddr : Nat}
    (h : vaddr ∈ MemorySystem.physicalToVirtualAddressForRasterizer pluginFb addr) :
    HasMarker vaddr ∧ Cacheable pluginFb vaddr := by
  unfold MemorySystem.physicalToVirtualAddressForRasterizer at h
  split_ifs at h with h₁ h₂ h₃ h₄
  · rw [List.mem_singleton.mp h]
    have hin : InRegion vramVaddr vramSize (addr - vramPaddr + vramVaddr) := by
      unfold InRegion vramPaddr vramVaddr vramSize at *
      omega
    exact ⟨.inl hin, .inr (.inr (.inl hin))⟩
  · rw [List.mem_singleton.mp h]
    have hin : InRegion plugin3gxFbVaddr plugin3gxFbSize (addr - pluginFb + plugin3gxFbVaddr) := by
      unfold InRegion plugin3gxFbVaddr plugin3gxFbSize at *
      omega
    exact ⟨.inr (.inr (.inr hin)), .inr (.inr (.inr ⟨hin, h₂.1⟩))⟩
  · have hold : InRegion linearHeapVaddr linearHeapSize (addr - fcramPaddr + linearHeapVaddr) := by
      unfold InRegion fcramPaddr fcramSize linearHeapVaddr linearHeapSize at *
      omega
    have hnew : InRegion newLinearHeapVaddr newLinearHeapSize (addr - fcramPaddr + newLinearHeapVaddr) := by
      unfold InRegion fcramPaddr fcramSize newLinearHeapVaddr newLinearHeapSize at *
      omega
    rcases List.mem_cons.mp h with rfl | h
    · exact ⟨.inr (.inl hold), .inl hold⟩
    · rw [List.mem_singleton.mp h]
      exact ⟨.inr (.inr (.inl hnew)), .inr (.inl hnew)⟩
  · rw [List.mem_singleton.mp h]
    have hnew : InRegion newLinearHeapVaddr newLinearHeapSize (addr - fcramPaddr + newLinearHeapVaddr) := by
      unfold InRegion fcramPaddr fcramSize fcramN3dsSize newLinearHeapVaddr newLinearHeapSize at *
      omega
    exact ⟨.inr (.inr (.inl hnew)), .inr (.inl hnew)⟩
  · cases h

private theorem inRegion_page {start size vaddr : Nat} (hstart : start % pageSize = 0) (hsize : size % pageSize = 0) :
    InRegion start size (vaddr / pageSize * pageSize) ↔ InRegion start size vaddr := by
  unfold InRegion pageSize at *
  omega

theorem hasMarker_page {vaddr : Nat} : HasMarker (vaddr / pageSize * pageSize) ↔ HasMarker vaddr := by
  unfold HasMarker
  rw [inRegion_page (by decide) (by decide), inRegion_page (by decide) (by decide),
    inRegion_page (by decide) (by decide), inRegion_page (by decide) (by decide)]

theorem cacheable_page {pluginFb vaddr : Nat} :
    Cacheable pluginFb (vaddr / pageSize * pageSize) ↔ Cacheable pluginFb vaddr := by
  unfold Cacheable
  rw [inRegion_page (by decide) (by decide), inRegion_page (by decide) (by decide),
    inRegion_page (by decide) (by decide), inRegion_page (by decide) (by decide)]

namespace RasterizerCacheMarker

theorem isCached_page (m : RasterizerCacheMarker) (vaddr : Nat) :
    m.isCached (vaddr / pageSize * pageSize) = m.isCached vaddr := by
  have hpage : vaddr / pageSize * pageSize / pageSize = vaddr / pageSize := Nat.mul_div_cancel _ (by decide)
  unfold isCached
  simp only [hasMarker_page, hpage]

theorem isCached_mark (m : RasterizerCacheMarker) {vaddr : Nat} (hmarker : HasMarker vaddr) (cached : Bool)
    (page : Nat) : (m.mark vaddr cached).isCached (page * pageSize) =
      if page = vaddr / pageSize then cached else m.isCached (page * pageSize) := by
  have hpage : page * pageSize / pageSize = page := Nat.mul_div_cancel _ (by decide)
  unfold mark isCached
  rw [if_pos hmarker]
  simp only [hpage, Function.update_apply]
  by_cases heq : page = vaddr / pageSize
  · subst heq
    simp [hasMarker_page.mpr hmarker]
  · simp [heq]

end RasterizerCacheMarker

structure PageInv (marker : RasterizerCacheMarker) (t : PageTable) (page : Nat) : Prop extends PageOk marker t page where
  entry : ∀ info, t.watchpointPagesMap page = some info → info.memory ≠ none

structure SamePage (t t' : PageTable) (page : Nat) : Prop where
  attributes : t'.attributes page = t.attributes page
  pointers : t'.pointers page = t.pointers page
  watchpointPagesMap : t'.watchpointPagesMap page = t.watchpointPagesMap page

theorem SamePage.pageInv {t t' : PageTable} {page : Nat} (h : SamePage t t' page) {marker marker' : RasterizerCacheMarker}
    (hmarker : marker'.isCached (page * pageSize) = marker.isCached (page * pageSize)) (hinv : PageInv marker t page) :
    PageInv marker' t' page := by
  refine ⟨⟨?_, ?_, ?_⟩, ?_⟩
  · rw [h.attributes, h.pointers]
    exact hinv.memory
  · rw [h.attributes, h.watchpointPagesMap]
    exact hinv.watchpoint
  · rw [h.attributes, hmarker]
    exact hinv.cached
  · rw [h.watchpointPagesMap]
    exact hinv.entry

namespace PageTable

variable {t : PageTable} {page : Nat} {type : PageType} {pointer : Option MemoryRef} {info : Option WatchpointPageInfo}

@[simp]
theorem set_attributes : (t.set page type pointer).attributes page = type := Function.update_self _ _ _

@[simp]
theorem set_pointers : (t.set page type pointer).pointers page = pointer := Function.update_self _ _ _

@[simp]
theorem set_watchpointPagesMap : (t.set page type pointer).watchpointPagesMap = t.watchpointPagesMap := rfl

@[simp]
theorem setWatchpoint_attributes : (t.setWatchpoint page info).attributes = t.attributes := rfl

@[simp]
theorem setWatchpoint_pointers : (t.setWatchpoint page info).pointers = t.pointers := rfl

@[simp]
theorem setWatchpoint_watchpointPagesMap : (t.setWatchpoint page info).watchpointPagesMap page = info :=
  Function.update_self _ _ _

theorem set_samePage {other : Nat} (h : other ≠ page) : SamePage t (t.set page type pointer) other :=
  ⟨Function.update_of_ne h _ _, Function.update_of_ne h _ _, rfl⟩

theorem setWatchpoint_samePage {other : Nat} (h : other ≠ page) : SamePage t (t.setWatchpoint page info) other :=
  ⟨rfl, rfl, Function.update_of_ne h _ _⟩

end PageTable

theorem SamePage.trans {t t' t'' : PageTable} {page : Nat} (h : SamePage t t' page) (h' : SamePage t' t'' page) :
    SamePage t t'' page :=
  ⟨h'.attributes.trans h.attributes, h'.pointers.trans h.pointers, h'.watchpointPagesMap.trans h.watchpointPagesMap⟩

structure TurnOk (marker : RasterizerCacheMarker) (page : Nat) (t t' : PageTable) : Prop where
  here : PageInv marker t' page
  others : ∀ other, other ≠ page → SamePage t t' other

variable {marker : RasterizerCacheMarker} {pluginFb : Nat} {t : PageTable} {page : Nat}

theorem registerPage_ok (hplugin : PluginFbOk pluginFb)
    (hmarker : marker.isCached (page * pageSize) = true → Cacheable pluginFb (page * pageSize))
    (h : PageInv marker t page) (hmapped : t.attributes page ≠ .unmapped) :
    ∃ t', t.registerPage pluginFb page = .ok t' ∧ TurnOk marker page t t' ∧ t'.attributes page ≠ .unmapped := by
  unfold PageTable.registerPage
  cases hentry : t.watchpointPagesMap page with
  | some info =>
    generalize addU32 info.watchpointCount 1 = count
    refine ⟨_, rfl, ⟨⟨⟨h.memory, ?_, h.cached⟩, ?_⟩, fun other hne => PageTable.setWatchpoint_samePage hne⟩, hmapped⟩
    · have hwatch := h.watchpoint
      rw [hentry] at hwatch
      simpa using hwatch
    · intro info' hinfo
      rw [PageTable.setWatchpoint_watchpointPagesMap] at hinfo
      cases hinfo
      exact h.entry info hentry
  | none =>
    cases htype : t.attributes page with
    | unmapped => exact absurd htype hmapped
    | memory =>
      have hpointer := h.memory.mp htype
      have hcached := h.cached hmapped
      rw [htype] at hcached
      refine ⟨_, rfl, ⟨⟨⟨?_, ?_, ?_⟩, ?_⟩, ?_⟩, by simp⟩
      · simp
      · simp [PageType.IsWatchpoint]
      · simpa [PageType.IsCached] using hcached
      · simpa using hpointer
      · exact fun other hne => (PageTable.set_samePage hne).trans (PageTable.setWatchpoint_samePage hne)
    | rasterizerCachedMemory =>
      have hcached := h.cached hmapped
      have hmemory := h.memory
      rw [htype] at hcached hmemory
      obtain ⟨r, hr⟩ := (hmarker (hcached.mp (.inl rfl))).getPointer hplugin
      simp only [hr, bind, Except.bind]
      refine ⟨_, rfl, ⟨⟨⟨?_, ?_, ?_⟩, ?_⟩, ?_⟩, by simp⟩
      · simpa using hmemory
      · simp [PageType.IsWatchpoint]
      · simpa [PageType.IsCached] using hcached
      · simp
      · exact fun other hne => (PageTable.set_samePage hne).trans (PageTable.setWatchpoint_samePage hne)
    | memoryWatchpoint => exact absurd hentry (h.watchpoint.mp (.inl htype))
    | rasterizerCachedMemoryWatchpoint => exact absurd hentry (h.watchpoint.mp (.inr htype))

theorem unregisterPage_ok (h : PageInv marker t page) :
    ∃ t', t.unregisterPage page = .ok t' ∧ TurnOk marker page t t' := by
  unfold PageTable.unregisterPage
  cases hentry : t.watchpointPagesMap page with
  | none => exact ⟨t, rfl, h, fun _ _ => ⟨rfl, rfl, rfl⟩⟩
  | some info =>
    have hwatch : (t.attributes page).IsWatchpoint := h.watchpoint.mpr (by simp [hentry])
    have hmapped : t.attributes page ≠ .unmapped := by
      intro htype
      rw [htype] at hwatch
      cases hwatch with
      | inl h => cases h
      | inr h => cases h
    have hcached := h.cached hmapped
    have hmemory := h.memory
    dsimp only
    generalize (info.watchpointCount + (2 ^ 32 - 1)) % 2 ^ 32 = count
    split_ifs with hcount
    · rcases hwatch with htype | htype
      · rw [htype] at hcached hmemory
        have hinfo := h.entry info hentry
        simp only [PageTable.setWatchpoint_attributes, htype]
        refine ⟨_, rfl, ⟨⟨?_, ?_, ?_⟩, ?_⟩, ?_⟩
        · simpa using hinfo
        · simp [PageType.IsWatchpoint]
        · simpa [PageType.IsCached] using hcached
        · simp
        · exact fun other hne => (PageTable.setWatchpoint_samePage hne).trans (PageTable.set_samePage hne)
      · rw [htype] at hcached hmemory
        simp only [PageTable.setWatchpoint_attributes, htype]
        refine ⟨_, rfl, ⟨⟨?_, ?_, ?_⟩, ?_⟩, ?_⟩
        · simpa using hmemory
        · simp [PageType.IsWatchpoint]
        · simpa [PageType.IsCached] using hcached
        · simp
        · exact fun other hne => (PageTable.setWatchpoint_samePage hne).trans (PageTable.set_samePage hne)
    · refine ⟨_, rfl, ⟨⟨h.memory, ?_, h.cached⟩, ?_⟩, fun other hne => PageTable.setWatchpoint_samePage hne⟩
      · simpa using hwatch
      · intro info' hinfo
        rw [PageTable.setWatchpoint_watchpointPagesMap] at hinfo
        cases hinfo
        exact h.entry info hentry

theorem mapPage_ok {type : PageType} {memory : Option MemoryRef} (hunwatched : t.watchpointPagesMap page = none)
    (htype : type = .memory ∧ memory ≠ none ∨ type = .unmapped ∧ memory = none) :
    TurnOk marker page t
      (if type = .memory ∧ marker.isCached (page * pageSize) then t.set page .rasterizerCachedMemory none
        else t.set page type memory) := by
  split_ifs with hcached
  · refine ⟨⟨⟨?_, ?_, ?_⟩, ?_⟩, fun other hne => PageTable.set_samePage hne⟩
    · simp
    · simp [PageType.IsWatchpoint, hunwatched]
    · simp [PageType.IsCached, hcached.2]
    · simp [hunwatched]
  · refine ⟨⟨⟨?_, ?_, ?_⟩, ?_⟩, fun other hne => PageTable.set_samePage hne⟩
    · rcases htype with ⟨rfl, hmem⟩ | ⟨rfl, rfl⟩
      · simpa using hmem
      · simp
    · rcases htype with ⟨rfl, hmem⟩ | ⟨rfl, rfl⟩
      · simp [PageType.IsWatchpoint, hunwatched]
      · simp [PageType.IsWatchpoint, hunwatched]
    · rcases htype with ⟨rfl, hmem⟩ | ⟨rfl, rfl⟩
      · have hno : marker.isCached (page * pageSize) = false := by simpa using hcached
        simp [PageType.IsCached, hno]
      · simp
    · simp [hunwatched]

/-- A page that `RasterizerMarkRegionCached` marks, and that was marked the other way. -/
theorem markPage_ok {vaddr : Nat} {cached : Bool} (hplugin : PluginFbOk pluginFb) (hhas : HasMarker vaddr)
    (hcacheable : Cacheable pluginFb vaddr) (hother : marker.isCached vaddr = !cached)
    (h : PageInv marker t (vaddr / pageSize)) :
    ∃ t', t.markPage pluginFb vaddr cached = .ok t' ∧ TurnOk (marker.mark vaddr cached) (vaddr / pageSize) t t' := by
  have hnew := marker.isCached_mark hhas cached (vaddr / pageSize)
  have hold := h.cached
  rw [marker.isCached_page, hother] at hold
  unfold PageTable.markPage
  dsimp only
  cases htype : t.attributes (vaddr / pageSize) with
  | unmapped =>
    refine ⟨t, by cases cached <;> rfl, ⟨⟨h.memory, h.watchpoint, ?_⟩, h.entry⟩, fun _ _ => ⟨rfl, rfl, rfl⟩⟩
    simp [htype]
  | memory =>
    have hwatch := h.watchpoint
    simp only [htype, PageType.IsCached, PageType.IsWatchpoint] at hold hwatch
    cases cached with
    | false => simp at hold
    | true =>
      refine ⟨_, rfl, ⟨⟨?_, ?_, ?_⟩, h.entry⟩, fun other hne => PageTable.set_samePage hne⟩
      · simp
      · simpa [PageType.IsWatchpoint] using hwatch
      · simp [PageType.IsCached, hnew]
  | memoryWatchpoint =>
    have hwatch := h.watchpoint
    simp only [htype, PageType.IsCached, PageType.IsWatchpoint] at hold hwatch
    cases cached with
    | false => simp at hold
    | true =>
      refine ⟨_, rfl, ⟨⟨?_, ?_, ?_⟩, h.entry⟩, fun other hne => PageTable.set_samePage hne⟩
      · simp
      · simpa [PageType.IsWatchpoint] using hwatch
      · simp [PageType.IsCached, hnew]
  | rasterizerCachedMemory =>
    have hwatch := h.watchpoint
    simp only [htype, PageType.IsCached, PageType.IsWatchpoint] at hold hwatch
    cases cached with
    | true => simp at hold
    | false =>
      obtain ⟨r, hr⟩ := (cacheable_page.mpr hcacheable).getPointer hplugin
      simp only [hr, bind, Except.bind]
      refine ⟨_, rfl, ⟨⟨?_, ?_, ?_⟩, h.entry⟩, fun other hne => PageTable.set_samePage hne⟩
      · simp
      · simpa [PageType.IsWatchpoint] using hwatch
      · simp [PageType.IsCached, hnew]
  | rasterizerCachedMemoryWatchpoint =>
    have hwatch := h.watchpoint
    have hmemory := h.memory
    simp only [htype, PageType.IsCached, PageType.IsWatchpoint] at hold hwatch hmemory
    cases cached with
    | true => simp at hold
    | false =>
      refine ⟨_, rfl, ⟨⟨?_, ?_, ?_⟩, h.entry⟩, fun other hne => PageTable.set_samePage hne⟩
      · simpa using hmemory
      · simpa [PageType.IsWatchpoint] using hwatch
      · simp [PageType.IsCached, hnew]

def TableInv (marker : RasterizerCacheMarker) (t : PageTable) : Prop := ∀ page, PageInv marker t page

theorem TurnOk.tableInv {marker' : RasterizerCacheMarker} {t' : PageTable} (h : TurnOk marker' page t t')
    (hmarker : ∀ other, other ≠ page → marker'.isCached (other * pageSize) = marker.isCached (other * pageSize))
    (hinv : TableInv marker t) : TableInv marker' t' := by
  intro other
  by_cases hpage : other = page
  · subst hpage
    exact h.here
  · exact (h.others other hpage).pageInv (hmarker other hpage) (hinv other)

/-- A loop whose turns at the pages of the region succeed and keep an invariant. -/
theorem watchpointLoop_ok {turn : Nat → PageTable → Except MemoryFault PageTable} {P : PageTable → Prop}
    {addr stop : Nat} (hstop : stop ≤ 2 ^ 32 - pageSize)
    (hturn : ∀ page t, Touches addr stop page → P t → ∃ t', turn page t = .ok t' ∧ P t')
    {fuel current : Nat} (hcurrent : current < 2 ^ 32) (haddr : addr / pageSize ≤ current / pageSize)
    (hfuel : pageTableNumEntries + 1 ≤ fuel + current / pageSize) (ht : P t) :
    ∃ t', PageTable.watchpointLoop turn stop fuel current t = .ok t' ∧ P t' := by
  have hpage : current / pageSize < pageTableNumEntries := by
    unfold pageTableNumEntries pageSize
    omega
  induction fuel generalizing current t with
  | zero => omega
  | succ fuel ih =>
    unfold PageTable.watchpointLoop
    split_ifs with hlt
    · have htouch : Touches addr stop (current / pageSize) := ⟨haddr, (Nat.div_mul_le_self _ _).trans_lt hlt⟩
      obtain ⟨t', ht', hP⟩ := hturn (current / pageSize) t htouch ht
      have hle : current / pageSize * pageSize ≤ current := Nat.div_mul_le_self _ _
      have hnext : addU32 (current / pageSize * pageSize) pageSize = (current / pageSize + 1) * pageSize := by
        unfold addU32
        unfold pageSize at *
        omega
      have hdiv : (current / pageSize + 1) * pageSize / pageSize = current / pageSize + 1 :=
        Nat.mul_div_cancel _ (by decide)
      rw [ht', hnext]
      apply ih
      · unfold pageSize at *
        omega
      · omega
      · omega
      · exact hP
      · unfold pageTableNumEntries pageSize at *
        omega
    · exact ⟨t, rfl, ht⟩

theorem mapPages_ok {type : PageType} {size base : Nat} {memory : Option MemoryRef}
    (hrange : base + size ≤ pageTableNumEntries)
    (htype : type = .memory ∧ memory ≠ none ∨ type = .unmapped ∧ memory = none)
    (hunwatched : ∀ page, base ≤ page → page < base + size → t.watchpointPagesMap page = none)
    (ht : TableInv marker t) :
    ∃ t', PageTable.mapPages marker type size base memory t = .ok t' ∧ TableInv marker t' := by
  induction size generalizing base memory t with
  | zero => exact ⟨t, rfl, ht⟩
  | succ size ih =>
    have hturn : TurnOk marker base t _ := mapPage_ok (hunwatched base le_rfl (by omega)) htype
    unfold PageTable.mapPages
    rw [if_pos (by omega)]
    apply ih
    · omega
    · rcases htype with ⟨h, hmem⟩ | ⟨h, hmem⟩
      · refine .inl ⟨h, ?_⟩
        simpa [PageTable.nextPage] using hmem
      · refine .inr ⟨h, ?_⟩
        rw [hmem]
        rfl
    · intro page hle hlt
      rw [(hturn.others page (by omega)).watchpointPagesMap]
      exact hunwatched page (by omega) (by omega)
    · exact hturn.tableInv (fun _ _ => rfl) ht

namespace MemorySystem

structure Invariant (s : MemorySystem) : Prop where
  plugin : PluginFbOk s.pluginFbAddress
  tables : ∀ t ∈ s.pageTableList, TableInv s.cacheMarker t
  marked : ∀ page, s.cacheMarker.isCached (page * pageSize) = true → Cacheable s.pluginFbAddress (page * pageSize)

namespace Invariant

variable {s : MemorySystem}

section

variable (h : s.Invariant)

include h

theorem onTable {table : Nat} {f : PageTable → Except MemoryFault PageTable}
    (hf : ∀ t, s.pageTableList[table]? = some t → ∃ t', f t = .ok t' ∧ TableInv s.cacheMarker t') :
    ∃ s', s.onTable table f = .ok s' ∧ s'.Invariant := by
  unfold MemorySystem.onTable
  cases htable : s.pageTableList[table]? with
  | none => exact ⟨s, rfl, h⟩
  | some t =>
    obtain ⟨t', ht', hinv⟩ := hf t htable
    simp only [ht', bind, Except.bind]
    refine ⟨_, rfl, h.plugin, ?_, h.marked⟩
    intro t'' hmem
    rcases List.mem_or_eq_of_mem_set hmem with hmem | rfl
    · exact h.tables t'' hmem
    · exact hinv

theorem mapRegion {table base size : Nat} (hmap : s.Mappable table base size) {type : PageType}
    {memory : Option MemoryRef} (htype : type = .memory ∧ memory ≠ none ∨ type = .unmapped ∧ memory = none) :
    ∃ s', s.onTable table (PageTable.mapRegion s.cacheMarker base size memory type) = .ok s' ∧ s'.Invariant := by
  apply h.onTable
  intro t ht
  obtain ⟨hsize, hbase, hrange, hunwatched⟩ := hmap
  unfold PageTable.mapRegion
  rw [if_neg (by simp [hsize, hbase])]
  apply mapPages_ok _ htype _ (h.tables t (List.mem_of_getElem? ht))
  · unfold pageTableNumEntries pageSize at *
    omega
  · intro page hle hlt
    apply hunwatched t ht page
    · unfold pageSize at *
      omega
    · unfold pageSize at *
      omega

theorem registerWatchpoint {table addr size : Nat} (haddr : addr < 2 ^ 32) (hends : EndsBefore addr size)
    (hmapped : ∀ t, s.pageTableList[table]? = some t → ∀ page, Touches addr (addU32 addr size) page →
      t.attributes page ≠ .unmapped) :
    ∃ s', s.onTable table (fun t => t.registerWatchpoint s.pluginFbAddress addr size) = .ok s' ∧ s'.Invariant := by
  apply h.onTable
  intro t ht
  have hinv := h.tables t (List.mem_of_getElem? ht)
  unfold PageTable.registerWatchpoint
  by_cases hlt : addr < addU32 addr size
  · suffices hloop : ∃ t', PageTable.watchpointLoop (PageTable.registerPage s.pluginFbAddress) (addU32 addr size)
        (pageTableNumEntries + 1) addr t = .ok t' ∧ TableInv s.cacheMarker t' ∧
          ∀ page, Touches addr (addU32 addr size) page → t'.attributes page ≠ .unmapped by
      obtain ⟨t', ht', hinv', -⟩ := hloop
      exact ⟨t', ht', hinv'⟩
    · refine watchpointLoop_ok (hends hlt) ?_ haddr le_rfl (Nat.le_add_right _ _) ⟨hinv, hmapped t ht⟩
      rintro page t ⟨hle, hstop⟩ ⟨hinv, hmapped⟩
      obtain ⟨t', ht', hturn, hmapped'⟩ :=
        registerPage_ok h.plugin (h.marked page) (hinv page) (hmapped page ⟨hle, hstop⟩)
      refine ⟨t', ht', hturn.tableInv (fun _ _ => rfl) hinv, ?_⟩
      intro other htouch
      by_cases hpage : other = page
      · subst hpage
        exact hmapped'
      · rw [(hturn.others other hpage).attributes]
        exact hmapped other htouch
  · refine ⟨t, ?_, hinv⟩
    unfold PageTable.watchpointLoop
    rw [if_neg hlt]

theorem unregisterWatchpoint {table addr size : Nat} (haddr : addr < 2 ^ 32) (hends : EndsBefore addr size) :
    ∃ s', s.onTable table (fun t => t.unregisterWatchpoint addr size) = .ok s' ∧ s'.Invariant := by
  apply h.onTable
  intro t ht
  have hinv := h.tables t (List.mem_of_getElem? ht)
  unfold PageTable.unregisterWatchpoint
  by_cases hlt : addr < addU32 addr size
  · refine watchpointLoop_ok (hends hlt) ?_ haddr le_rfl (Nat.le_add_right (pageTableNumEntries + 1) _) hinv
    intro page t _ hinv
    obtain ⟨t', ht', hturn⟩ := unregisterPage_ok (hinv page)
    exact ⟨t', ht', hturn.tableInv (fun _ _ => rfl) hinv⟩
  · refine ⟨t, ?_, hinv⟩
    unfold PageTable.watchpointLoop
    rw [if_neg hlt]

theorem markVaddr {vaddr : Nat} {cached : Bool} (hhas : HasMarker vaddr)
    (hcacheable : Cacheable s.pluginFbAddress vaddr) (hother : s.cacheMarker.isCached vaddr = !cached) :
    ∃ s', MemorySystem.markVaddr cached s vaddr = .ok s' ∧ s'.Invariant ∧
      s'.pluginFbAddress = s.pluginFbAddress ∧ s'.cacheMarker = s.cacheMarker.mark vaddr cached := by
  have hmark := s.cacheMarker.isCached_mark hhas cached
  obtain ⟨list, hlist, hinv⟩ : ∃ list, s.pageTableList.mapM (PageTable.markPage s.pluginFbAddress vaddr cached) =
      .ok list ∧ ∀ t ∈ list, TableInv (s.cacheMarker.mark vaddr cached) t := by
    apply mapM_ok
    intro t ht
    obtain ⟨t', ht', hturn⟩ := markPage_ok h.plugin hhas hcacheable hother (h.tables t ht (vaddr / pageSize))
    refine ⟨t', ht', hturn.tableInv ?_ (h.tables t ht)⟩
    intro other hne
    rw [hmark, if_neg hne]
  unfold MemorySystem.markVaddr
  simp only [hlist, bind, Except.bind]
  refine ⟨_, rfl, ⟨h.plugin, hinv, ?_⟩, rfl, rfl⟩
  intro page hcached
  rw [hmark] at hcached
  split_ifs at hcached with hpage
  · rw [hpage]
    exact cacheable_page.mpr hcacheable
  · exact h.marked page hcached

theorem markVaddrs {cached : Bool} {vaddrs : List Nat}
    (hvaddrs : ∀ vaddr ∈ vaddrs, HasMarker vaddr ∧ Cacheable s.pluginFbAddress vaddr)
    (halt : Alternates cached s.cacheMarker vaddrs) :
    ∃ s', vaddrs.foldlM (MemorySystem.markVaddr cached) s = .ok s' ∧ s'.Invariant := by
  induction vaddrs generalizing s with
  | nil => exact ⟨s, rfl, h⟩
  | cons vaddr vaddrs ih =>
    obtain ⟨hhas, hcacheable⟩ := hvaddrs vaddr List.mem_cons_self
    obtain ⟨s₁, hs₁, hinv, hplugin, hmarker⟩ := h.markVaddr hhas hcacheable halt.1
    rw [List.foldlM_cons, hs₁]
    apply ih hinv
    · intro v hv
      rw [hplugin]
      exact hvaddrs v (List.mem_cons_of_mem _ hv)
    · rw [hmarker]
      exact halt.2

/-- Every operation that meets its condition succeeds and keeps the invariant. -/
theorem exec {op : Op} (hop : s.OpOk op) : ∃ s', s.exec op = .ok s' ∧ s'.Invariant := by
  cases op with
  | mapMemoryRegion table base size target => exact h.mapRegion hop (.inl ⟨rfl, by simp⟩)
  | unmapRegion table base size => exact h.mapRegion hop (.inr ⟨rfl, rfl⟩)
  | rasterizerMarkRegionCached start size cached =>
    apply h.markVaddrs _ hop
    intro vaddr hvaddr
    unfold cachedVaddrs at hvaddr
    split_ifs at hvaddr
    · cases hvaddr
    · obtain ⟨i, -, hvaddr⟩ := List.mem_flatMap.mp hvaddr
      exact cacheable_of_mem hvaddr
  | registerWatchpoint table addr size => exact h.registerWatchpoint hop.1 hop.2.1 hop.2.2
  | unregisterWatchpoint table addr size => exact h.unregisterWatchpoint hop.1 hop.2

theorem slowAccess {t : PageTable} (ht : t ∈ s.pageTableList) {vaddr : Nat}
    (htype : t.attributes (vaddr / pageSize) ≠ .memory) : ∃ target, t.slowAccess s.pluginFbAddress vaddr = .ok target := by
  have hinv := h.tables t ht (vaddr / pageSize)
  have hpointer : ∀ type : PageType, t.attributes (vaddr / pageSize) = type → type.IsCached →
      ∃ r, getPointerForRasterizerCache s.pluginFbAddress vaddr = .ok r := by
    rintro type rfl hcached
    have hmapped : t.attributes (vaddr / pageSize) ≠ .unmapped := by
      intro hunmapped
      rw [hunmapped] at hcached
      rcases hcached with hcached | hcached <;> cases hcached
    have hmarked := (hinv.cached hmapped).mp hcached
    exact (cacheable_page.mp (h.marked _ hmarked)).getPointer h.plugin
  unfold PageTable.slowAccess
  cases hattr : t.attributes (vaddr / pageSize) with
  | unmapped => exact ⟨_, rfl⟩
  | memory => exact absurd hattr htype
  | memoryWatchpoint =>
    obtain ⟨⟨count, memory⟩, hinfo⟩ := Option.ne_none_iff_exists'.mp (hinv.watchpoint.mp (.inl hattr))
    obtain ⟨r, hr⟩ := Option.ne_none_iff_exists'.mp (hinv.entry _ hinfo)
    subst hr
    simp only [hinfo]
    exact ⟨_, rfl⟩
  | rasterizerCachedMemory =>
    obtain ⟨r, hr⟩ := hpointer _ hattr (.inl rfl)
    simp only [hr, bind, Except.bind]
    exact ⟨_, rfl⟩
  | rasterizerCachedMemoryWatchpoint =>
    obtain ⟨r, hr⟩ := hpointer _ hattr (.inr rfl)
    simp only [hr, bind, Except.bind]
    exact ⟨_, rfl⟩

theorem accesses {t : PageTable} (ht : t ∈ s.pageTableList) (vaddr : Nat) :
    (∃ target, t.access s.pluginFbAddress vaddr = .ok target) ∧
    (∃ target, t.accessExclusive s.pluginFbAddress vaddr = .ok target) ∧
    ∃ target, t.accessBlock s.pluginFbAddress vaddr = .ok target := by
  have hmemory := (h.tables t ht (vaddr / pageSize)).memory
  refine ⟨?_, ?_, ?_⟩
  · unfold PageTable.access
    cases hpointer : t.pointers (vaddr / pageSize) with
    | some pointer => exact ⟨_, rfl⟩
    | none =>
      dsimp only
      split_ifs
      · exact ⟨_, rfl⟩
      · exact ⟨_, rfl⟩
      · exact h.slowAccess ht fun htype => hmemory.mp htype hpointer
  · unfold PageTable.accessExclusive
    cases hpointer : t.pointers (vaddr / pageSize) with
    | some pointer => exact ⟨_, rfl⟩
    | none => exact h.slowAccess ht fun htype => hmemory.mp htype hpointer
  · unfold PageTable.accessBlock
    split
    · next htype =>
      obtain ⟨pointer, hpointer⟩ := Option.ne_none_iff_exists'.mp (hmemory.mp htype)
      rw [hpointer]
      exact ⟨_, rfl⟩
    · next htype => exact h.slowAccess ht htype

end

end Invariant

theorem Run.invariant {s : MemorySystem} (h : Run s) : s.Invariant := by
  induction h with
  | init numTables pluginFb hplugin =>
    have hmarker : ∀ vaddr, RasterizerCacheMarker.isCached ⟨fun _ => false⟩ vaddr = false := by
      intro vaddr
      unfold RasterizerCacheMarker.isCached
      split_ifs
      · rfl
      · rfl
    refine ⟨hplugin, ?_, ?_⟩
    · intro t ht page
      rw [List.eq_of_mem_replicate ht]
      refine ⟨⟨?_, ?_, ?_⟩, ?_⟩
      · simp [PageTable.clear]
      · simp [PageTable.clear, PageType.IsWatchpoint]
      · simp [PageTable.clear]
      · simp [PageTable.clear]
    · intro page hcached
      rw [hmarker] at hcached
      cases hcached
  | step op _ hop hexec ih =>
    obtain ⟨s', hs', hinv⟩ := ih.exec hop
    rw [hs'] at hexec
    cases hexec
    exact hinv

/-- In every run in which no page with a watchpoint is mapped or unmapped and watchpoints are only set on mapped pages,
the records of every page agree, every such operation succeeds, and every access finds its memory. -/
theorem run_pagesOk {s : MemorySystem} (h : Run s) :
    PagesOk s ∧ (∀ op, OpOk s op → ∃ s', exec s op = .ok s') ∧
    ∀ t ∈ s.pageTableList, ∀ vaddr, (∃ target, t.access s.pluginFbAddress vaddr = .ok target) ∧
      (∃ target, t.accessExclusive s.pluginFbAddress vaddr = .ok target) ∧
      ∃ target, t.accessBlock s.pluginFbAddress vaddr = .ok target := by
  refine ⟨fun t ht page => (h.invariant.tables t ht page).toPageOk, ?_, fun t ht => h.invariant.accesses ht⟩
  intro op hop
  obtain ⟨s', hs', -⟩ := h.invariant.exec hop
  exact ⟨s', hs'⟩

def sampleMemory : MemorySystem := ⟨[PageTable.clear], ⟨fun _ => false⟩, 0⟩

def watchedHeap : Except MemoryFault MemorySystem := do
  let s ← sampleMemory.exec (.mapMemoryRegion 0 0x14000000 0x1000 ⟨.fcram, 0⟩)
  s.exec (.registerWatchpoint 0 0x14000010 4)

/-- A watched page that becomes cached. -/
theorem watchedHeap_pagesOk : ∃ s s', watchedHeap = .ok s ∧
    s.exec (.rasterizerMarkRegionCached 0x20000000 0x1000 true) = .ok s' ∧ PagesOk s' := by
  have h₀ : Run sampleMemory := Run.init 1 0 (.inl rfl)
  have hmap : sampleMemory.Mappable 0 0x14000000 0x1000 := by
    refine ⟨by decide, by decide, by decide, ?_⟩
    intro t ht page _ _
    cases ht
    rfl
  have h₁ : Run _ := h₀.step (.mapMemoryRegion 0 0x14000000 0x1000 ⟨.fcram, 0⟩) hmap rfl
  have h₂ : Run _ := h₁.step (.registerWatchpoint 0 0x14000010 4) ?_ rfl
  have h₃ : Run _ := h₂.step (.rasterizerMarkRegionCached 0x20000000 0x1000 true) ?_ rfl
  · exact ⟨_, _, rfl, rfl, (run_pagesOk h₃).1⟩
  · -- both virtual pages of the physical page are not marked
    have hvaddrs : cachedVaddrs 0 0x20000000 0x1000 = [0x14000000, 0x30000000] := by decide
    show Alternates true _ (cachedVaddrs 0 0x20000000 0x1000)
    rw [hvaddrs]
    exact ⟨rfl, rfl, trivial⟩
  · refine ⟨by decide, fun _ => by decide, ?_⟩
    rintro t ht page ⟨hle, hlt⟩
    have hpage : page = 0x14000 := by
      unfold pageSize addU32 at *
      omega
    subst hpage
    cases ht
    decide

/-- Unmapping a watched page leaves its watchpoint behind, and a watchpoint on a page that is not mapped is never set. -/
theorem watchedHeap_not_pagesOk :
    (∃ s s', watchedHeap = .ok s ∧ s.exec (.unmapRegion 0 0x14000000 0x1000) = .ok s' ∧ ¬ PagesOk s') ∧
    sampleMemory.exec (.registerWatchpoint 0 0x14000010 4) = .error .neverReturns := by
  refine ⟨⟨_, _, rfl, rfl, ?_⟩, rfl⟩
  intro hok
  have hwatch := (hok _ List.mem_cons_self 0x14000).watchpoint.mpr (by decide)
  rcases hwatch with h | h
  · cases h
  · cases h

end MemorySystem

end SweepDSEmu.Memory
