import SweepDSEmu.Lib.Cells
import SweepDSEmu.Memory.PageTableConsistency

/-!
# Registering and unregistering watchpoints

`RegisterWatchpoint` and `UnregisterWatchpoint` go over the pages of a range.  A page of a type that cannot be watched
is tried again for ever, since the loop of `RegisterWatchpoint` continues before it advances, and a range that reaches
the last page of the address space is started again from address zero.  `registerWatchpoint_undone_iff` says that a
watchpoint is registered, and undone by unregistering it, in all other cases.
-/

namespace SweepDSEmu.Memory

structure PageRecord where
  type : PageType
  pointer : Option MemoryRef
  watchpoint : Option WatchpointPageInfo
  deriving DecidableEq

namespace PageTable

def record (t : PageTable) (page : Nat) : PageRecord :=
  ⟨t.attributes page, t.pointers page, t.watchpointPagesMap page⟩

def setRecord (page : Nat) (r : PageRecord) (t : PageTable) : PageTable :=
  (t.set page r.type r.pointer).setWatchpoint page r.watchpoint

theorem record_setRecord (page : Nat) (r : PageRecord) (t : PageTable) : (t.setRecord page r).record page = r := by
  simp [record, setRecord]

theorem record_setRecord_of_ne {page other : Nat} (h : other ≠ page) (r : PageRecord) (t : PageTable) :
    (t.setRecord page r).record other = t.record other := by
  have hsame : SamePage t (t.setRecord page r) other := (set_samePage h).trans (setWatchpoint_samePage h)
  simp [record, hsame.attributes, hsame.pointers, hsame.watchpointPagesMap]

theorem ext_record {t t' : PageTable} (h : ∀ page, t.record page = t'.record page) : t = t' := by
  obtain ⟨attributes, pointers, watchpointPagesMap⟩ := t
  obtain ⟨attributes', pointers', watchpointPagesMap'⟩ := t'
  simp only [record, PageRecord.mk.injEq] at h
  rw [mk.injEq]
  exact ⟨funext fun page => (h page).1, funext fun page => (h page).2.1, funext fun page => (h page).2.2⟩

def cells : Cells PageTable Nat PageRecord where
  get := record
  put := setRecord
  get_put_self := record_setRecord
  get_put_of_ne := record_setRecord_of_ne
  ext := ext_record

/-- What a turn of the loop of `RegisterWatchpoint` does to the page. -/
def registerRecord (pluginFb page : Nat) (r : PageRecord) : Except MemoryFault PageRecord :=
  match r.watchpoint with
  | some info => .ok { r with watchpoint := some { info with watchpointCount := addU32 info.watchpointCount 1 } }
  | none =>
    match r.type with
    | .memory => .ok ⟨.memoryWatchpoint, none, some ⟨1, r.pointer⟩⟩
    | .rasterizerCachedMemory => do
      let mem ← getPointerForRasterizerCache pluginFb (page * pageSize)
      .ok ⟨.rasterizerCachedMemoryWatchpoint, r.pointer, some ⟨1, some mem⟩⟩
    | _ => .error .neverReturns

/-- What a turn of the loop of `UnregisterWatchpoint` does to the page. -/
def unregisterRecord (_page : Nat) (r : PageRecord) : Except MemoryFault PageRecord :=
  match r.watchpoint with
  | some info =>
    let watchpointCount := (info.watchpointCount + (2 ^ 32 - 1)) % 2 ^ 32
    if watchpointCount = 0 then
      match r.type with
      | .memoryWatchpoint => .ok ⟨.memory, info.memory, none⟩
      | .rasterizerCachedMemoryWatchpoint => .ok ⟨.rasterizerCachedMemory, r.pointer, none⟩
      | type => .ok ⟨type, r.pointer, none⟩
    else .ok { r with watchpoint := some { info with watchpointCount } }
  | none => .ok r

private theorem set_self (t : PageTable) (page : Nat) : t.set page (t.attributes page) (t.pointers page) = t := by
  simp [set, Function.update_eq_self]

private theorem setWatchpoint_self (t : PageTable) (page : Nat) :
    t.setWatchpoint page (t.watchpointPagesMap page) = t := by
  simp [setWatchpoint, Function.update_eq_self]

private theorem setRecord_watchpoint {t : PageTable} {page : Nat} {type : PageType} (htype : t.attributes page = type)
    (info : Option WatchpointPageInfo) :
    t.setRecord page ⟨type, t.pointers page, info⟩ = t.setWatchpoint page info := by
  unfold setRecord
  rw [← htype, set_self]

theorem registerPage_eq_turn (pluginFb page : Nat) (t : PageTable) :
    registerPage pluginFb page t = cells.turn (registerRecord pluginFb) t page := by
  unfold registerPage Cells.turn registerRecord
  simp only [cells, record]
  cases hentry : t.watchpointPagesMap page with
  | some info => simp only [ok_bind, setRecord_watchpoint rfl]
  | none =>
    cases htype : t.attributes page with
    | memory => rfl
    | rasterizerCachedMemory =>
      cases getPointerForRasterizerCache pluginFb (page * pageSize) with
      | ok mem => rfl
      | error e => rfl
    | unmapped => rfl
    | memoryWatchpoint => rfl
    | rasterizerCachedMemoryWatchpoint => rfl

theorem unregisterPage_eq_turn (page : Nat) (t : PageTable) :
    unregisterPage page t = cells.turn unregisterRecord t page := by
  unfold unregisterPage Cells.turn unregisterRecord
  simp only [cells, record]
  cases hentry : t.watchpointPagesMap page with
  | none =>
    have hself : t.setRecord page ⟨t.attributes page, t.pointers page, none⟩ = t.setWatchpoint page none :=
      setRecord_watchpoint rfl none
    rw [← hentry, setWatchpoint_self, hentry] at hself
    simp only [ok_bind, hself]
  | some info =>
    simp only
    generalize (info.watchpointCount + (2 ^ 32 - 1)) % 2 ^ 32 = count
    split
    · cases htype : t.attributes page with
      | memoryWatchpoint =>
        simp only [setWatchpoint_attributes, htype]
        rfl
      | rasterizerCachedMemoryWatchpoint =>
        simp only [setWatchpoint_attributes, htype]
        rfl
      | unmapped =>
        simp only [setWatchpoint_attributes, htype, ok_bind, setRecord_watchpoint htype]
      | memory =>
        simp only [setWatchpoint_attributes, htype, ok_bind, setRecord_watchpoint htype]
      | rasterizerCachedMemory =>
        simp only [setWatchpoint_attributes, htype, ok_bind, setRecord_watchpoint htype]
    · simp only [ok_bind, setRecord_watchpoint rfl]

def Watchable (pluginFb page : Nat) (r : PageRecord) : Prop :=
  match r.watchpoint with
  | some info => info.watchpointCount ≠ 0
  | none => r.type = .memory ∨
      r.type = .rasterizerCachedMemory ∧ ∃ mem, getPointerForRasterizerCache pluginFb (page * pageSize) = .ok mem

/-- The count of a watched page is a `u32`. -/
def CountFits (r : PageRecord) : Prop := ∀ info, r.watchpoint = some info → info.watchpointCount < 2 ^ 32

private theorem unregisterRecord_count {page : Nat} {type : PageType} {pointer : Option MemoryRef}
    {info : WatchpointPageInfo} (hfits : info.watchpointCount < 2 ^ 32) :
    unregisterRecord page ⟨type, pointer, some { info with watchpointCount := addU32 info.watchpointCount 1 }⟩ =
        .ok ⟨type, pointer, some info⟩ ↔
      info.watchpointCount ≠ 0 := by
  have hcount : (addU32 info.watchpointCount 1 + (2 ^ 32 - 1)) % 2 ^ 32 = info.watchpointCount := by
    unfold addU32
    omega
  unfold unregisterRecord
  simp only [hcount]
  by_cases hzero : info.watchpointCount = 0
  · cases type <;> simp [hzero]
  · simp [hzero]

private theorem watchable_of_entry {pluginFb page : Nat} {type : PageType} {pointer : Option MemoryRef}
    {info : WatchpointPageInfo} (hfits : info.watchpointCount < 2 ^ 32) :
    (∃ r', registerRecord pluginFb page ⟨type, pointer, some info⟩ = .ok r' ∧
        unregisterRecord page r' = .ok ⟨type, pointer, some info⟩) ↔
      info.watchpointCount ≠ 0 := by
  rw [← unregisterRecord_count hfits]
  constructor
  · rintro ⟨r', hr', hback⟩
    rw [← hback]
    cases hr'
    rfl
  · intro hback
    exact ⟨_, rfl, hback⟩

private theorem unregisterRecord_first (page : Nat) (pointer : Option MemoryRef) (type : PageType)
    (mem : Option MemoryRef) :
    unregisterRecord page ⟨type, pointer, some ⟨1, mem⟩⟩ =
      match type with
      | .memoryWatchpoint => .ok ⟨.memory, mem, none⟩
      | .rasterizerCachedMemoryWatchpoint => .ok ⟨.rasterizerCachedMemory, pointer, none⟩
      | type => .ok ⟨type, pointer, none⟩ := by
  have hone : (1 + (2 ^ 32 - 1)) % 2 ^ 32 = 0 := by decide
  unfold unregisterRecord
  simp only [hone, if_true]

theorem watchable_iff {pluginFb page : Nat} {r : PageRecord} (hfits : CountFits r) :
    Watchable pluginFb page r ↔
      ∃ r', registerRecord pluginFb page r = .ok r' ∧ unregisterRecord page r' = .ok r := by
  obtain ⟨type, pointer, watchpoint⟩ := r
  cases watchpoint with
  | some info => exact (watchable_of_entry (hfits info rfl)).symm
  | none =>
    cases type with
    | memory =>
      refine iff_of_true (.inl rfl) ⟨_, rfl, ?_⟩
      rw [unregisterRecord_first]
    | rasterizerCachedMemory =>
      cases hmem : getPointerForRasterizerCache pluginFb (page * pageSize) with
      | ok mem =>
        refine iff_of_true (.inr ⟨rfl, mem, hmem⟩)
          ⟨⟨.rasterizerCachedMemoryWatchpoint, pointer, some ⟨1, some mem⟩⟩, ?_, ?_⟩
        · simp only [registerRecord, hmem, ok_bind]
        · rw [unregisterRecord_first]
      | error e => simp [Watchable, registerRecord, hmem, bind, Except.bind]
    | unmapped => simp [Watchable, registerRecord]
    | memoryWatchpoint => simp [Watchable, registerRecord]
    | rasterizerCachedMemoryWatchpoint => simp [Watchable, registerRecord]

/-- The pages that the loops visit, in order. -/
def pagesOf (addr stop : Nat) : List Nat :=
  if addr < stop then List.range' (addr / pageSize) ((stop + (pageSize - 1)) / pageSize - addr / pageSize) else []

theorem mem_pagesOf {addr stop page : Nat} : page ∈ pagesOf addr stop ↔ addr < stop ∧ Touches addr stop page := by
  unfold pagesOf Touches pageSize
  split
  · rw [List.mem_range'_1]
    omega
  · simp
    omega

private theorem pagesOf_nodup (addr stop : Nat) : (pagesOf addr stop).Nodup := by
  unfold pagesOf
  split
  · exact List.nodup_range'
  · exact List.nodup_nil

private theorem pagesOf_cons {addr stop : Nat} (h : addr < stop) :
    pagesOf addr stop = addr / pageSize :: pagesOf ((addr / pageSize + 1) * pageSize) stop := by
  unfold pagesOf
  rw [if_pos h, Nat.mul_div_cancel _ (by decide)]
  obtain ⟨n, hn⟩ : ∃ n, (stop + (pageSize - 1)) / pageSize - addr / pageSize = n + 1 := by
    unfold pageSize
    exact ⟨(stop + (4096 - 1)) / 4096 - addr / 4096 - 1, by omega⟩
  rw [hn, List.range'_succ]
  split
  · have hn' : (stop + (pageSize - 1)) / pageSize - (addr / pageSize + 1) = n := by omega
    rw [hn']
  · have hn' : n = 0 := by
      unfold pageSize at *
      omega
    rw [hn', List.range'_zero]

private theorem addU32_next {current : Nat} (h : current / pageSize + 1 < pageTableNumEntries) :
    addU32 (current / pageSize * pageSize) pageSize = (current / pageSize + 1) * pageSize := by
  unfold addU32 pageTableNumEntries pageSize at *
  omega

theorem watchpointLoop_eq_foldlM {turn : Nat → PageTable → Except MemoryFault PageTable} {stop : Nat}
    (hstop : stop ≤ 2 ^ 32 - pageSize) {fuel current : Nat}
    (hfuel : pageTableNumEntries + 1 ≤ fuel + current / pageSize)
    (hpage : current / pageSize < pageTableNumEntries) (t : PageTable) :
    watchpointLoop turn stop fuel current t = (pagesOf current stop).foldlM (fun t page => turn page t) t := by
  induction fuel generalizing current t with
  | zero => omega
  | succ fuel ih =>
    unfold watchpointLoop
    by_cases hlt : current < stop
    · have hnext : current / pageSize + 1 < pageTableNumEntries := by
        unfold pageTableNumEntries pageSize at *
        omega
      have hdiv : (current / pageSize + 1) * pageSize / pageSize = current / pageSize + 1 :=
        Nat.mul_div_cancel _ (by decide)
      rw [if_pos hlt, pagesOf_cons hlt, List.foldlM_cons, addU32_next hnext]
      congr 1
      funext t'
      apply ih
      · omega
      · omega
    · rw [if_neg hlt]
      unfold pagesOf
      rw [if_neg hlt]
      rfl

theorem watchpointLoop_goes_round {turn : Nat → PageTable → Except MemoryFault PageTable} {stop : Nat}
    (hstop : 2 ^ 32 - pageSize < stop) (fuel : Nat) {current : Nat} (hlt : current < stop) (t t' : PageTable) :
    watchpointLoop turn stop fuel current t ≠ .ok t' := by
  induction fuel generalizing current t with
  | zero =>
    intro h
    cases h
  | succ fuel ih =>
    intro h
    unfold watchpointLoop at h
    rw [if_pos hlt] at h
    obtain ⟨t1, -, h⟩ := ok_of_bind h
    refine ih ?_ t1 h
    -- The next address is that of a page, and no page begins at or after `stop`.
    unfold addU32 pageSize at *
    omega

def RangeWatchable (t : PageTable) (pluginFb addr size : Nat) : Prop :=
  size = 0 ∨ addr + size ≤ 2 ^ 32 - pageSize ∧
    ∀ page, Touches addr (addr + size) page → Watchable pluginFb page (t.record page)

def RegistersAndUndoes (t : PageTable) (pluginFb addr size : Nat) : Prop :=
  ∃ t', t.registerWatchpoint pluginFb addr size = .ok t' ∧ t'.unregisterWatchpoint addr size = .ok t

private theorem turns_eq (pluginFb : Nat) :
    (fun t page => registerPage pluginFb page t) = cells.turn (registerRecord pluginFb) ∧
      (fun t page => unregisterPage page t) = cells.turn unregisterRecord :=
  ⟨funext fun t => funext fun page => registerPage_eq_turn pluginFb page t,
    funext fun t => funext fun page => unregisterPage_eq_turn page t⟩

/-- `RegisterWatchpoint` returns and `UnregisterWatchpoint` undoes it exactly when the pages can be watched. -/
theorem registerWatchpoint_undone_iff (t : PageTable) (pluginFb addr size : Nat)
    (hfits : ∀ page, CountFits (t.record page)) (hrange : addr + size < 2 ^ 32) :
    t.RegistersAndUndoes pluginFb addr size ↔ t.RangeWatchable pluginFb addr size := by
  have hsum : addU32 addr size = addr + size := by
    unfold addU32
    omega
  unfold RegistersAndUndoes RangeWatchable registerWatchpoint unregisterWatchpoint
  rw [hsum]
  by_cases hempty : size = 0
  · subst hempty
    refine iff_of_true ⟨t, ?_, ?_⟩ (.inl rfl)
    · unfold watchpointLoop
      rw [if_neg (by omega)]
    · unfold watchpointLoop
      rw [if_neg (by omega)]
  by_cases hstop : addr + size ≤ 2 ^ 32 - pageSize
  · have hpage : addr / pageSize < pageTableNumEntries := by
      unfold pageTableNumEntries pageSize at *
      omega
    obtain ⟨hregister, hunregister⟩ := turns_eq pluginFb
    have hloop : ∀ turn t, watchpointLoop turn (addr + size) (pageTableNumEntries + 1) addr t =
        (pagesOf addr (addr + size)).foldlM (fun t page => turn page t) t :=
      fun turn t => watchpointLoop_eq_foldlM hstop (Nat.le_add_right _ _) hpage t
    simp only [hloop, hregister, hunregister]
    rw [cells.foldlM_undone_iff (pagesOf_nodup _ _)]
    have hpages : ∀ page, page ∈ pagesOf addr (addr + size) ↔ Touches addr (addr + size) page := by
      intro page
      rw [mem_pagesOf]
      exact and_iff_right (by omega)
    constructor
    · intro h
      refine .inr ⟨hstop, ?_⟩
      intro page htouch
      exact (watchable_iff (hfits page)).mpr (h page ((hpages page).mpr htouch))
    · intro h page hmem
      obtain ⟨-, h⟩ := h.resolve_left hempty
      exact (watchable_iff (hfits page)).mp (h page ((hpages page).mp hmem))
  · refine iff_of_false ?_ ?_
    · rintro ⟨t', ht', -⟩
      exact watchpointLoop_goes_round (by omega) _ (by omega) t t' ht'
    · rintro (h | ⟨h, -⟩)
      · exact hempty h
      · exact hstop h

theorem registerWatchpoint_undone_iff_memory :
    (PageTable.mk (fun _ => .memory) (fun page => some ⟨.fcram, page * pageSize⟩) (fun _ => none)).RegistersAndUndoes
        0 0x2000 8 ↔
      (PageTable.mk (fun _ => .memory) (fun page => some ⟨.fcram, page * pageSize⟩) (fun _ => none)).RangeWatchable
        0 0x2000 8 :=
  registerWatchpoint_undone_iff _ 0 0x2000 8 (by intro page info h; cases h) (by decide)

/-- A watchpoint on a page that is not mapped is never registered. -/
theorem registerWatchpoint_clear_never_returns :
    ¬ ∀ (t : PageTable) (pluginFb addr size : Nat), addr + size < 2 ^ 32 → t.RegistersAndUndoes pluginFb addr size := by
  intro h
  obtain ⟨t', ht', -⟩ := h PageTable.clear 0 0x2000 8 (by decide)
  cases ht'

end PageTable

end SweepDSEmu.Memory
