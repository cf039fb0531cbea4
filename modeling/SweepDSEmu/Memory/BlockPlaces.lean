import SweepDSEmu.Memory.BlockAccess

/-!
# The places of a block

A block that is no longer than a page has one place or two.  When the second goes on where the first ends, the block is
read and written as one place.
-/

namespace SweepDSEmu.Memory

namespace HostMemory

variable {m : HostMemory} {pluginFb : Nat}

@[simp] theorem length_load (start : MemoryRef) (count : Nat) : (m.load start count).length = count := by
  simp [load]

theorem getElem?_load {start : MemoryRef} {count i : Nat} (h : i < count) :
    (m.load start count)[i]? = some (m.bytes start.backingMem (start.offset + i)) := by
  simp [load, h]

theorem load_add (start : MemoryRef) (a b : Nat) : m.load start (a + b) = m.load start a ++ m.load (start.advance a) b := by
  simp [load, MemoryRef.advance, List.range_add, Function.comp_def, Nat.add_assoc]

theorem store_append (start : MemoryRef) (data data' : List UInt8) :
    m.store start (data ++ data') = (m.store start data).store (start.advance data.length) data' := by
  unfold store MemoryRef.advance
  simp only [mk.injEq, and_true]
  funext backingMem offset
  by_cases h : backingMem = start.backingMem ∧ start.offset ≤ offset
  · by_cases hlt : offset - start.offset < data.length
    · have hnot : ¬ (backingMem = start.backingMem ∧ start.offset + data.length ≤ offset) := by omega
      rw [if_pos h, if_neg hnot, if_pos h, List.getElem?_append_left hlt]
    · have hge : start.offset + data.length ≤ offset := by omega
      rw [if_pos h, if_pos ⟨h.1, hge⟩, if_pos h, List.getElem?_append_right (by omega),
        List.getElem?_eq_none (not_lt.mp hlt), Option.getD_none, Nat.sub_add_eq]
  · have hnot : ¬ (backingMem = start.backingMem ∧ start.offset + data.length ≤ offset) := by
      rintro ⟨hb, hle⟩
      exact h ⟨hb, by omega⟩
    rw [if_neg h, if_neg hnot, if_neg h]

theorem inVirtualRegion_add {start a b : Nat} {backingMem : BackingMem} {offset : Nat} :
    InVirtualRegion pluginFb start (a + b) backingMem offset ↔
      InVirtualRegion pluginFb start a backingMem offset ∨ InVirtualRegion pluginFb (start + a) b backingMem offset := by
  constructor
  · rintro ⟨i, hi, h⟩
    by_cases hlt : i < a
    · exact .inl ⟨i, hlt, h⟩
    · refine .inr ⟨i - a, by omega, ?_⟩
      rwa [show start + a + (i - a) = start + i by omega]
  · rintro (⟨i, hi, h⟩ | ⟨i, hi, h⟩)
    · exact ⟨i, by omega, h⟩
    · exact ⟨a + i, by omega, by rwa [← Nat.add_assoc]⟩

theorem flushVirtualRegion_add (m : HostMemory) (pluginFb start a b : Nat) (mode : FlushMode) :
    m.flushVirtualRegion pluginFb start (a + b) mode =
      (m.flushVirtualRegion pluginFb start a mode).flushVirtualRegion pluginFb (start + a) b mode := by
  unfold flushVirtualRegion
  simp only [mk.injEq]
  constructor
  · funext backingMem offset
    by_cases hfirst : InVirtualRegion pluginFb start a backingMem offset <;>
      by_cases hsecond : InVirtualRegion pluginFb (start + a) b backingMem offset <;>
      simp [inVirtualRegion_add, hfirst, hsecond]
  · funext backingMem offset
    by_cases hfirst : InVirtualRegion pluginFb start a backingMem offset <;>
      by_cases hsecond : InVirtualRegion pluginFb (start + a) b backingMem offset <;>
      simp [inVirtualRegion_add, hfirst, hsecond]

theorem flushVirtualRegion_of_none {start size : Nat} {mode : FlushMode}
    (h : ∀ backingMem offset, InVirtualRegion pluginFb start size backingMem offset → m.rendered backingMem offset = none) :
    m.flushVirtualRegion pluginFb start size mode = m := by
  unfold flushVirtualRegion
  cases m with
  | mk bytes rendered =>
    simp only [mk.injEq]
    constructor
    · funext backingMem offset
      split
      · rename_i hin
        dsimp only at h
        rw [h _ _ hin.2, Option.getD_none]
      · rfl
    · funext backingMem offset
      split
      · rename_i hin
        exact (h _ _ hin).symm
      · rfl

theorem rendered_flushVirtualRegion {start size offset : Nat} {mode : FlushMode} {backingMem : BackingMem}
    (h : m.rendered backingMem offset = none) :
    (m.flushVirtualRegion pluginFb start size mode).rendered backingMem offset = none := by
  simp [flushVirtualRegion, h]

theorem load_flushVirtualRegion {place : MemoryRef} {count start size : Nat} {mode : FlushMode}
    (h : ∀ i < count, m.rendered place.backingMem (place.offset + i) = none) :
    (m.flushVirtualRegion pluginFb start size mode).load place count = m.load place count := by
  apply List.map_congr_left
  intro i hi
  simp [flushVirtualRegion, h i (List.mem_range.mp hi)]

theorem flushVirtualRegion_store (start size : Nat) (place : MemoryRef) (data : List UInt8) :
    (m.store place data).flushVirtualRegion pluginFb start size .invalidate =
      (m.flushVirtualRegion pluginFb start size .invalidate).store place data := by
  simp [flushVirtualRegion, store]

end HostMemory

section Regions

variable {pluginFb vaddr i : Nat} {r r' : MemoryRef}

theorem MemoryRef.make_eq {backingMem : BackingMem} {offset : Nat} (h : MemoryRef.make backingMem offset = .ok r) :
    r = ⟨backingMem, offset⟩ := by
  unfold MemoryRef.make at h
  split at h
  · exact (Except.ok.inj h).symm
  · cases h

theorem getPointer_cases (h : getPointerForRasterizerCache pluginFb vaddr = .ok r) :
    (InRegion linearHeapVaddr linearHeapSize vaddr ∧ r = ⟨.fcram, vaddr - linearHeapVaddr⟩) ∨
    (InRegion newLinearHeapVaddr newLinearHeapSize vaddr ∧ r = ⟨.fcram, vaddr - newLinearHeapVaddr⟩) ∨
    (InRegion vramVaddr vramSize vaddr ∧ r = ⟨.vram, vaddr - vramVaddr⟩) ∨
    (InRegion plugin3gxFbVaddr plugin3gxFbSize vaddr ∧ pluginFb ≠ 0 ∧
      r = ⟨.fcram, vaddr - plugin3gxFbVaddr + pluginFb - fcramPaddr⟩) := by
  unfold getPointerForRasterizerCache at h
  split_ifs at h with hlinear hnew hvram hfb
  · exact .inl ⟨hlinear, MemoryRef.make_eq h⟩
  · exact .inr (.inl ⟨hnew, MemoryRef.make_eq h⟩)
  · exact .inr (.inr (.inl ⟨hvram, MemoryRef.make_eq h⟩))
  · exact .inr (.inr (.inr ⟨hfb.1, hfb.2, MemoryRef.make_eq h⟩))

private theorem inRegion_advance {start size : Nat} (hstart : start % pageSize = 0) (hsize : size % pageSize = 0)
    (hpage : vaddr % pageSize + i < pageSize) : InRegion start size (vaddr + i) ↔ InRegion start size vaddr := by
  simp only [InRegion, pageSize] at *
  omega

private theorem make_advance {backingMem : BackingMem} {offset offset' : Nat} (h : offset' = offset + i)
    (hle : offset' ≤ backingMem.getSize) :
    MemoryRef.make backingMem offset' = .ok (MemoryRef.advance ⟨backingMem, offset⟩ i) := by
  rw [MemoryRef.make, if_pos hle, h]
  rfl

theorem getPointer_advance (hplugin : PluginFbOk pluginFb) (h : getPointerForRasterizerCache pluginFb vaddr = .ok r)
    (hpage : vaddr % pageSize + i < pageSize) :
    getPointerForRasterizerCache pluginFb (vaddr + i) = .ok (r.advance i) := by
  have hlinear : InRegion linearHeapVaddr linearHeapSize (vaddr + i) ↔ InRegion linearHeapVaddr linearHeapSize vaddr :=
    inRegion_advance (by decide) (by decide) hpage
  have hnewLinear :
      InRegion newLinearHeapVaddr newLinearHeapSize (vaddr + i) ↔ InRegion newLinearHeapVaddr newLinearHeapSize vaddr :=
    inRegion_advance (by decide) (by decide) hpage
  have hvram : InRegion vramVaddr vramSize (vaddr + i) ↔ InRegion vramVaddr vramSize vaddr :=
    inRegion_advance (by decide) (by decide) hpage
  have hfb : InRegion plugin3gxFbVaddr plugin3gxFbSize (vaddr + i) ↔ InRegion plugin3gxFbVaddr plugin3gxFbSize vaddr :=
    inRegion_advance (by decide) (by decide) hpage
  unfold getPointerForRasterizerCache at h ⊢
  simp only [hlinear, hnewLinear, hvram, hfb]
  split_ifs at h ⊢ with hin hin hin hin
  · obtain rfl := MemoryRef.make_eq h
    have hend := hlinear.mpr hin
    simp only [InRegion, linearHeapVaddr, linearHeapSize] at hin hend ⊢
    exact make_advance (by omega) (by simp only [BackingMem.getSize, fcramN3dsSize]; omega)
  · obtain rfl := MemoryRef.make_eq h
    have hend := hnewLinear.mpr hin
    simp only [InRegion, newLinearHeapVaddr, newLinearHeapSize] at hin hend ⊢
    exact make_advance (by omega) (by simp only [BackingMem.getSize, fcramN3dsSize]; omega)
  · obtain rfl := MemoryRef.make_eq h
    have hend := hvram.mpr hin
    simp only [InRegion, vramVaddr, vramSize] at hin hend ⊢
    exact make_advance (by omega) (by simp only [BackingMem.getSize, vramSize]; omega)
  · obtain rfl := MemoryRef.make_eq h
    have hend := hfb.mpr hin.1
    simp only [InRegion, plugin3gxFbVaddr, plugin3gxFbSize, PluginFbOk, fcramPaddr, fcramN3dsSize] at hin hend hplugin ⊢
    exact make_advance (by omega) (by simp only [BackingMem.getSize, fcramN3dsSize]; omega)

theorem getPointer_injective (hplugin : PluginFbOk pluginFb) (h : getPointerForRasterizerCache pluginFb vaddr = .ok r)
    (h' : getPointerForRasterizerCache pluginFb (vaddr + i) = .ok r) (hclose : i ≤ pageSize) : i = 0 := by
  have hcases := getPointer_cases h
  have hcases' := getPointer_cases h'
  simp only [PluginFbOk, InRegion, linearHeapVaddr, linearHeapSize, newLinearHeapVaddr, newLinearHeapSize, vramVaddr,
    vramSize, plugin3gxFbVaddr, plugin3gxFbSize, fcramPaddr, fcramN3dsSize, pageSize] at hplugin hcases hcases' hclose
  rcases hcases with ⟨hin, rfl⟩ | ⟨hin, rfl⟩ | ⟨hin, rfl⟩ | ⟨hin, hne, rfl⟩ <;>
    rcases hcases' with ⟨hin', heq⟩ | ⟨hin', heq⟩ | ⟨hin', heq⟩ | ⟨hin', hne', heq⟩ <;>
    simp only [MemoryRef.mk.injEq, reduceCtorEq, false_and, true_and] at heq <;>
    omega

end Regions

namespace Place

def fetch (pluginFb vaddr count : Nat) (m : HostMemory) : Place → List UInt8 × HostMemory
  | host start cached =>
    let m := if cached then m.flushVirtualRegion pluginFb vaddr count .flush else m
    (m.load start count, m)
  | _ => (List.replicate count 0, m)

def put (pluginFb vaddr : Nat) (data : List UInt8) (m : HostMemory) : Place → HostMemory
  | host start cached =>
    let m := if cached then m.flushVirtualRegion pluginFb vaddr data.length .invalidate else m
    m.store start data
  | _ => m

/-- The place of the first page goes on for `count` bytes, up to the place of the next page. -/
def Continues (count : Nat) : Place → Place → Prop
  | unmapped, unmapped => True
  | host start cached, host start' cached' => start' = start.advance count ∧ (cached' = true → cached = true)
  | _, _ => False

end Place

namespace PageTable

variable {t : PageTable} {pluginFb page offset vaddr : Nat} {p q : Place} {m : HostMemory}

def Tracks (t : PageTable) (page : Nat) : Prop :=
  t.attributes page = .rasterizerCachedMemory ∨ t.attributes page = .rasterizerCachedMemoryWatchpoint

def RenderedTracked (t : PageTable) (pluginFb vaddr count : Nat) (m : HostMemory) : Prop :=
  ∀ i < count, ¬ t.Tracks ((vaddr + i) / pageSize) → ∀ r, getPointerForRasterizerCache pluginFb (vaddr + i) = .ok r →
    m.rendered r.backingMem r.offset = none

theorem placeBlock_ne_register {addr : Nat} : t.placeBlock pluginFb page offset ≠ .ok (.register addr) := by
  unfold placeBlock
  split
  · simp
  · split <;> simp
  · split <;> simp
  · split <;> simp
  · split <;> simp

theorem placeBlock_cached_iff {start : MemoryRef} {cached : Bool}
    (h : t.placeBlock pluginFb page offset = .ok (.host start cached)) : cached = true ↔ t.Tracks page := by
  unfold placeBlock at h
  unfold Tracks
  split at h <;> rename_i hattr
  · cases h
  · split at h <;> cases h
    simp [hattr]
  · split at h <;> cases h
    simp [hattr]
  · split at h <;> cases h
    simp [hattr]
  · split at h <;> cases h
    simp [hattr]

theorem getPointer_of_placeBlock {start : MemoryRef}
    (h : t.placeBlock pluginFb page offset = .ok (.host start true)) :
    getPointerForRasterizerCache pluginFb (page * pageSize + offset) = .ok start := by
  unfold placeBlock at h
  split at h
  · cases h
  · split at h <;> cases h
  · split at h <;> cases h
  · split at h <;> cases h
    assumption
  · split at h <;> cases h
    assumption

section Loop

variable {σ : Type*} {turn : Nat → Nat → Nat → σ → Except AccessFault σ} {turns remaining : Nat} {s : σ}

@[simp] theorem overPages_done : overPages turn turns page offset 0 s = .ok s := by
  cases turns with
  | zero => rfl
  | succ turns => simp [overPages]

theorem overPages_within (hturns : 0 < turns) (hremaining : 0 < remaining) (hpage : page < pageTableNumEntries)
    (hfits : offset + remaining ≤ pageSize) :
    overPages turn turns page offset remaining s = turn page offset remaining s := by
  obtain ⟨turns, rfl⟩ := Nat.exists_eq_add_one.mpr hturns
  have hamount : min (pageSize - offset) remaining = remaining := by omega
  rw [overPages, if_neg hremaining.ne', if_neg (not_le.mpr hpage)]
  simp only [hamount, Nat.sub_self, overPages_done]
  split <;> simp_all

theorem overPages_across (hturns : 1 < turns) (hpage : page < pageTableNumEntries) (hoffset : offset < pageSize)
    (hcross : pageSize < offset + remaining) (hshort : remaining ≤ pageSize) :
    overPages turn turns page offset remaining s =
      (turn page offset (pageSize - offset) s).bind fun s =>
        if pageTableNumEntries ≤ page + 1 then .error .pageIndex
        else turn (page + 1) 0 (remaining - (pageSize - offset)) s := by
  obtain ⟨turns, rfl⟩ := Nat.exists_eq_add_of_le hturns
  have hamount : min (pageSize - offset) remaining = pageSize - offset := by omega
  rw [show 0 + 1 + 1 + turns = turns + 1 + 1 by omega, overPages, if_neg (by omega), if_neg (not_le.mpr hpage)]
  simp only [hamount]
  cases turn page offset (pageSize - offset) s with
  | error e => rfl
  | ok s =>
    simp only [Except.bind]
    by_cases hnext : pageTableNumEntries ≤ page + 1
    · rw [overPages, if_neg (by omega), if_pos hnext, if_pos hnext]
    · rw [if_neg hnext, overPages_within (by omega) (by omega) (by omega) (by omega)]

end Loop

def blockPlaces (t : PageTable) (pluginFb vaddr count : Nat) : Except AccessFault (Place × Option Place) :=
  match t.placeBlock pluginFb (vaddr / pageSize) (vaddr % pageSize) with
  | .error e => .error e
  | .ok p =>
    if vaddr % pageSize + count ≤ pageSize then .ok (p, none)
    else if pageTableNumEntries ≤ vaddr / pageSize + 1 then .error .pageIndex
    else (t.placeBlock pluginFb (vaddr / pageSize + 1) 0).map fun q => (p, some q)

def fetchPlaces (pluginFb vaddr count : Nat) (m : HostMemory) : Place × Option Place → List UInt8 × HostMemory
  | (p, none) => p.fetch pluginFb vaddr count m
  | (p, some q) =>
    let first := pageSize - vaddr % pageSize
    let (bytes, m) := p.fetch pluginFb vaddr first m
    let (bytes', m) := q.fetch pluginFb (vaddr + first) (count - first) m
    (bytes ++ bytes', m)

def putPlaces (pluginFb vaddr : Nat) (data : List UInt8) (m : HostMemory) : Place × Option Place → HostMemory
  | (p, none) => p.put pluginFb vaddr data m
  | (p, some q) =>
    let first := pageSize - vaddr % pageSize
    q.put pluginFb (vaddr + first) (data.drop first) (p.put pluginFb vaddr (data.take first) m)

theorem readPage_eq (page offset amount : Nat) (s : List UInt8 × HostMemory) :
    t.readPage pluginFb page offset amount s = (t.placeBlock pluginFb page offset).map fun p =>
      (s.1 ++ (p.fetch pluginFb (page * pageSize + offset) amount s.2).1,
        (p.fetch pluginFb (page * pageSize + offset) amount s.2).2) := by
  unfold readPage
  cases t.placeBlock pluginFb page offset with
  | error e => rfl
  | ok p => cases p <;> rfl

theorem readBlock_eq {count : Nat} (hvaddr : vaddr < 2 ^ 32) (hcount : 0 < count) (hshort : count ≤ pageSize)
    (m : HostMemory) :
    t.readBlock pluginFb vaddr count m =
      (t.blockPlaces pluginFb vaddr count).map (fetchPlaces pluginFb vaddr count m) := by
  have hpos : 0 < pageSize := by decide
  have hpage : vaddr / pageSize < pageTableNumEntries := by
    simp only [pageSize, pageTableNumEntries]
    omega
  have haddr : vaddr / pageSize * pageSize + vaddr % pageSize = vaddr := Nat.div_add_mod' vaddr pageSize
  have hnext : (vaddr / pageSize + 1) * pageSize + 0 = vaddr + (pageSize - vaddr % pageSize) := by
    have := Nat.mod_lt vaddr hpos
    rw [Nat.add_mul]
    omega
  unfold readBlock blockPlaces
  by_cases hfits : vaddr % pageSize + count ≤ pageSize
  · rw [overPages_within hcount hcount hpage hfits, readPage_eq, haddr]
    simp only [hfits, if_true]
    cases t.placeBlock pluginFb (vaddr / pageSize) (vaddr % pageSize) <;> rfl
  · have hmod := Nat.mod_lt vaddr hpos
    rw [overPages_across (by omega) hpage hmod (by omega) hshort, readPage_eq, haddr]
    cases t.placeBlock pluginFb (vaddr / pageSize) (vaddr % pageSize) with
    | error e => rfl
    | ok p =>
      simp only [Except.map, Except.bind]
      split
      · rfl
      · rw [readPage_eq, hnext]
        cases t.placeBlock pluginFb (vaddr / pageSize + 1) 0 <;> rfl

private theorem source_part {data : List UInt8} {start amount : Nat} (h : start + amount ≤ data.length) :
    ((List.range amount).map fun i => data.getD (start + i) 0) = (data.drop start).take amount := by
  apply List.ext_getElem
  · simp only [List.length_map, List.length_range, List.length_take, List.length_drop]
    omega
  · intro i hi _
    simp only [List.length_map, List.length_range] at hi
    have hlt : start + i < data.length := by omega
    simp [hlt]

theorem writePage_eq {data : List UInt8} {page offset amount : Nat} {s : Nat × HostMemory}
    (h : s.1 + amount ≤ data.length) :
    t.writePage pluginFb (fun _ i => data.getD i 0) page offset amount s =
      (t.placeBlock pluginFb page offset).map fun p =>
        (s.1 + amount, p.put pluginFb (page * pageSize + offset) ((data.drop s.1).take amount) s.2) := by
  have hlength : ((data.drop s.1).take amount).length = amount := by
    rw [List.length_take, List.length_drop]
    omega
  unfold writePage
  cases t.placeBlock pluginFb page offset with
  | error e => rfl
  | ok p =>
    cases p with
    | unmapped => rfl
    | register addr => rfl
    | host start cached =>
      simp only [source_part h]
      simp [Except.map, Place.put, hlength]

theorem writeBlock_eq {data : List UInt8} (hvaddr : vaddr < 2 ^ 32) (hcount : 0 < data.length)
    (hshort : data.length ≤ pageSize) (m : HostMemory) :
    t.writeBlock pluginFb vaddr (fun _ i => data.getD i 0) data.length m =
      (t.blockPlaces pluginFb vaddr data.length).map (putPlaces pluginFb vaddr data m) := by
  have hpos : 0 < pageSize := by decide
  have hpage : vaddr / pageSize < pageTableNumEntries := by
    simp only [pageSize, pageTableNumEntries]
    omega
  have haddr : vaddr / pageSize * pageSize + vaddr % pageSize = vaddr := Nat.div_add_mod' vaddr pageSize
  have hmod := Nat.mod_lt vaddr hpos
  have hnext : (vaddr / pageSize + 1) * pageSize + 0 = vaddr + (pageSize - vaddr % pageSize) := by
    rw [Nat.add_mul]
    omega
  unfold writeBlock blockPlaces
  by_cases hfits : vaddr % pageSize + data.length ≤ pageSize
  · rw [overPages_within hcount hcount hpage hfits, writePage_eq (by simp), haddr]
    simp only [hfits, if_true, List.drop_zero, List.take_length]
    cases t.placeBlock pluginFb (vaddr / pageSize) (vaddr % pageSize) <;> rfl
  · have hrest : pageSize - vaddr % pageSize + (data.length - (pageSize - vaddr % pageSize)) = data.length := by omega
    rw [overPages_across (by omega) hpage hmod (by omega) hshort, writePage_eq (by dsimp only; omega), haddr]
    simp only [hfits, if_false]
    cases t.placeBlock pluginFb (vaddr / pageSize) (vaddr % pageSize) with
    | error e => rfl
    | ok p =>
      simp only [Except.map, Except.bind]
      by_cases hlast : pageTableNumEntries ≤ vaddr / pageSize + 1
      · simp only [hlast, if_true]
      · rw [if_neg hlast, if_neg hlast, writePage_eq (by dsimp only; omega), hnext]
        have htake : (data.drop (pageSize - vaddr % pageSize)).take (data.length - (pageSize - vaddr % pageSize)) =
            data.drop (pageSize - vaddr % pageSize) := by
          rw [← List.length_drop, List.take_length]
        simp only [Nat.zero_add, htake]
        cases t.placeBlock pluginFb (vaddr / pageSize + 1) 0 <;> rfl

theorem blockPlaces_some {count : Nat} (h : t.blockPlaces pluginFb vaddr count = .ok (p, some q)) :
    t.placeBlock pluginFb (vaddr / pageSize) (vaddr % pageSize) = .ok p ∧ pageSize < vaddr % pageSize + count ∧
      t.placeBlock pluginFb (vaddr / pageSize + 1) 0 = .ok q := by
  unfold blockPlaces at h
  split at h
  · cases h
  · rename_i hfirst
    split_ifs at h with hfits hlast
    · simp at h
    · cases hnext : t.placeBlock pluginFb (vaddr / pageSize + 1) 0 with
      | error e => simp [hnext, Except.map] at h
      | ok q' =>
        simp only [hnext, Except.map, Except.ok.injEq, Prod.mk.injEq, Option.some.injEq] at h
        exact ⟨by rw [hfirst, h.1], not_le.mp hfits, by rw [h.2]⟩

theorem blockPlaces_none {count : Nat} (h : t.blockPlaces pluginFb vaddr count = .ok (p, none)) :
    t.placeBlock pluginFb (vaddr / pageSize) (vaddr % pageSize) = .ok p := by
  unfold blockPlaces at h
  split at h
  · cases h
  · rename_i hfirst
    split_ifs at h
    · simp only [Except.ok.injEq, Prod.mk.injEq, and_true] at h
      rw [hfirst, h]
    · cases hnext : t.placeBlock pluginFb (vaddr / pageSize + 1) 0 <;> simp [hnext, Except.map] at h

section Continues

variable {count : Nat} {start : MemoryRef}

private theorem first_flushed (hplugin : PluginFbOk pluginFb)
    (h : t.placeBlock pluginFb (vaddr / pageSize) (vaddr % pageSize) = .ok (.host start true)) (mode : FlushMode) :
    ∀ i < pageSize - vaddr % pageSize,
      (m.flushVirtualRegion pluginFb vaddr (pageSize - vaddr % pageSize) mode).rendered start.backingMem
        (start.offset + i) = none := by
  intro i hi
  have hpointer := getPointer_of_placeBlock h
  rw [Nat.div_add_mod'] at hpointer
  have hin : HostMemory.InVirtualRegion pluginFb vaddr (pageSize - vaddr % pageSize) start.backingMem
      (start.offset + i) := by
    refine ⟨i, hi, ?_⟩
    rw [getPointer_advance hplugin hpointer (by omega)]
    rfl
  simp [HostMemory.flushVirtualRegion, hin]

private theorem rest_flushed (hm : t.RenderedTracked pluginFb vaddr count m) (hcross : pageSize < vaddr % pageSize + count)
    (hshort : count ≤ pageSize) (hrest : ¬ t.Tracks (vaddr / pageSize + 1)) (mode mode' : FlushMode) :
    (m.flushVirtualRegion pluginFb vaddr (pageSize - vaddr % pageSize) mode).flushVirtualRegion pluginFb
        (vaddr + (pageSize - vaddr % pageSize)) (count - (pageSize - vaddr % pageSize)) mode' =
      m.flushVirtualRegion pluginFb vaddr (pageSize - vaddr % pageSize) mode := by
  apply HostMemory.flushVirtualRegion_of_none
  rintro backingMem offset ⟨i, hi, hpointer⟩
  apply HostMemory.rendered_flushVirtualRegion
  have hpage : (vaddr + (pageSize - vaddr % pageSize + i)) / pageSize = vaddr / pageSize + 1 := by
    simp only [pageSize] at *
    omega
  have hnone := hm (pageSize - vaddr % pageSize + i) (by omega) (by rwa [hpage]) ⟨backingMem, offset⟩
  rw [← Nat.add_assoc] at hnone
  apply hnone
  cases hcase : getPointerForRasterizerCache pluginFb (vaddr + (pageSize - vaddr % pageSize) + i) with
  | error e => simp [hcase, Except.toOption] at hpointer
  | ok r =>
    simp only [hcase, Except.toOption, Option.some.injEq] at hpointer
    rw [hpointer]

theorem fetchPlaces_of_continues (hplugin : PluginFbOk pluginFb) (hshort : count ≤ pageSize)
    (hm : t.RenderedTracked pluginFb vaddr count m) (h : t.blockPlaces pluginFb vaddr count = .ok (p, some q))
    (hcontinues : p.Continues (pageSize - vaddr % pageSize) q) :
    fetchPlaces pluginFb vaddr count m (p, some q) = p.fetch pluginFb vaddr count m := by
  obtain ⟨hfirst, hcross, hnext⟩ := blockPlaces_some h
  have hsum : pageSize - vaddr % pageSize + (count - (pageSize - vaddr % pageSize)) = count := by omega
  unfold fetchPlaces
  cases p with
  | register addr => exact absurd hfirst placeBlock_ne_register
  | unmapped =>
    cases q with
    | unmapped => simp [Place.fetch, hsum]
    | register addr => exact hcontinues.elim
    | host start' cached' => exact hcontinues.elim
  | host start cached =>
    cases q with
    | unmapped => exact hcontinues.elim
    | register addr => exact hcontinues.elim
    | host start' cached' =>
      obtain ⟨rfl, hcached⟩ := hcontinues
      cases cached with
      | false =>
        cases cached' with
        | true => exact absurd (hcached rfl) Bool.false_ne_true
        | false =>
          simp only [Place.fetch, Bool.false_eq_true, if_false]
          rw [← HostMemory.load_add, hsum]
      | true =>
        simp only [Place.fetch, if_true]
        rw [← hsum, HostMemory.flushVirtualRegion_add, HostMemory.load_add, hsum]
        cases cached' with
        | true =>
          rw [if_pos rfl, HostMemory.load_flushVirtualRegion (first_flushed hplugin hfirst .flush)]
        | false =>
          have hrest : ¬ t.Tracks (vaddr / pageSize + 1) := fun htracks =>
            absurd ((placeBlock_cached_iff hnext).mpr htracks) Bool.false_ne_true
          rw [if_neg Bool.false_ne_true, rest_flushed hm hcross hshort hrest]

theorem putPlaces_of_continues {data : List UInt8} (hshort : data.length ≤ pageSize)
    (hm : t.RenderedTracked pluginFb vaddr data.length m)
    (h : t.blockPlaces pluginFb vaddr data.length = .ok (p, some q))
    (hcontinues : p.Continues (pageSize - vaddr % pageSize) q) :
    putPlaces pluginFb vaddr data m (p, some q) = p.put pluginFb vaddr data m := by
  obtain ⟨hfirst, hcross, hnext⟩ := blockPlaces_some h
  have htake : (data.take (pageSize - vaddr % pageSize)).length = pageSize - vaddr % pageSize := by
    rw [List.length_take]
    omega
  have hsum : pageSize - vaddr % pageSize + (data.length - (pageSize - vaddr % pageSize)) = data.length := by omega
  have hstore (m : HostMemory) (start : MemoryRef) :
      (m.store start (data.take (pageSize - vaddr % pageSize))).store (start.advance (pageSize - vaddr % pageSize))
        (data.drop (pageSize - vaddr % pageSize)) = m.store start data := by
    have happend := HostMemory.store_append (m := m) start (data.take (pageSize - vaddr % pageSize))
      (data.drop (pageSize - vaddr % pageSize))
    rw [htake, List.take_append_drop] at happend
    exact happend.symm
  unfold putPlaces
  cases p with
  | register addr => exact absurd hfirst placeBlock_ne_register
  | unmapped =>
    cases q with
    | unmapped => rfl
    | register addr => exact hcontinues.elim
    | host start' cached' => exact hcontinues.elim
  | host start cached =>
    cases q with
    | unmapped => exact hcontinues.elim
    | register addr => exact hcontinues.elim
    | host start' cached' =>
      obtain ⟨rfl, hcached⟩ := hcontinues
      cases cached with
      | false =>
        cases cached' with
        | true => exact absurd (hcached rfl) Bool.false_ne_true
        | false => exact hstore m start
      | true =>
        simp only [Place.put, if_true, htake, List.length_drop]
        rw [← hsum, HostMemory.flushVirtualRegion_add, hsum]
        cases cached' with
        | true => rw [if_pos rfl, HostMemory.flushVirtualRegion_store, hstore]
        | false =>
          have hrest : ¬ t.Tracks (vaddr / pageSize + 1) := fun htracks =>
            absurd ((placeBlock_cached_iff hnext).mpr htracks) Bool.false_ne_true
          rw [if_neg Bool.false_ne_true, rest_flushed hm hcross hshort hrest, hstore]

end Continues

end PageTable

end SweepDSEmu.Memory
