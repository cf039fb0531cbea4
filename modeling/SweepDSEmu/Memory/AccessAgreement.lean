import SweepDSEmu.Memory.BlockBounds
import SweepDSEmu.Memory.BlockPlaces

/-!
# Numbers and blocks

Reading and writing one number is reading and writing the block of its bytes, when both find the same place, and the
block goes on there in the next page.
-/

namespace SweepDSEmu.Memory

namespace Place

def startOf : Place → Option MemoryRef
  | host start _ => some start
  | _ => none

def isCached : Place → Bool
  | host _ cached => cached
  | _ => false

def IsRegister : Place → Prop
  | register _ => True
  | _ => False

theorem eq_of_startOf {p p' : Place} (hp : ¬ p.IsRegister) (hp' : ¬ p'.IsRegister) (hstart : p.startOf = p'.startOf)
    (hcached : p.isCached = p'.isCached) : p = p' := by
  cases p <;> cases p' <;> simp_all [startOf, isCached, IsRegister]

theorem continues_of_startOf {p q : Place} {count : Nat} (hp : ¬ p.IsRegister) (hq : ¬ q.IsRegister)
    (hstart : p.startOf.map (·.advance count) = q.startOf) (hcached : q.isCached = true → p.isCached = true) :
    p.Continues count q := by
  cases p <;> cases q <;> simp_all [startOf, isCached, IsRegister, Continues]

end Place

def HostMemory.plain (bytes : BackingMem → Nat → UInt8) : HostMemory := ⟨bytes, fun _ _ => none⟩

def HostMemory.renderedAt (r : MemoryRef) : HostMemory :=
  ⟨fun _ _ => 0, fun backingMem offset => if r = ⟨backingMem, offset⟩ then some 1 else none⟩

def byteAt (bytes : BackingMem → Nat → UInt8) (r : Option MemoryRef) : UInt8 :=
  r.elim 0 fun r => bytes r.backingMem r.offset

theorem byteAt_injective {r r' : Option MemoryRef} (h : ∀ bytes, byteAt bytes r = byteAt bytes r') : r = r' := by
  cases r with
  | none =>
    cases r' with
    | none => rfl
    | some r' => exact absurd (h fun _ _ => 1) (by simp [byteAt])
  | some r =>
    cases r' with
    | none => exact absurd (h fun _ _ => 1) (by simp [byteAt])
    | some r' =>
      have hmark := h fun backingMem offset => if r = ⟨backingMem, offset⟩ then 1 else 0
      by_cases heq : r = r'
      · rw [heq]
      · simp [byteAt, heq] at hmark

theorem map_advance_zero (r : Option MemoryRef) : r.map (·.advance 0) = r := by
  cases r <;> rfl

section Fetch

variable {pluginFb vaddr count i : Nat} {bytes : BackingMem → Nat → UInt8} {p : Place} {m : HostMemory}

theorem Place.length_fetch : (p.fetch pluginFb vaddr count m).1.length = count := by
  cases p <;> simp [fetch]

theorem flushVirtualRegion_plain (start size : Nat) (mode : FlushMode) :
    (HostMemory.plain bytes).flushVirtualRegion pluginFb start size mode = .plain bytes :=
  HostMemory.flushVirtualRegion_of_none fun _ _ _ => rfl

theorem fetch_plain_snd : (p.fetch pluginFb vaddr count (.plain bytes)).2 = .plain bytes := by
  cases p with
  | unmapped => rfl
  | register addr => rfl
  | host start cached => simp [Place.fetch, flushVirtualRegion_plain]

theorem fetch_plain_fst (hi : i < count) :
    (p.fetch pluginFb vaddr count (.plain bytes)).1[i]? = some (byteAt bytes (p.startOf.map (·.advance i))) := by
  cases p with
  | unmapped => simp [Place.fetch, hi, byteAt, Place.startOf]
  | register addr => simp [Place.fetch, hi, byteAt, Place.startOf]
  | host start cached =>
    simp only [Place.fetch, flushVirtualRegion_plain, ite_self]
    rw [HostMemory.getElem?_load hi]
    rfl

theorem fetch_renderedAt_uncached {r : MemoryRef} (hcached : p.isCached = false) :
    p.fetch pluginFb vaddr count (.renderedAt r) = (List.replicate count 0, .renderedAt r) := by
  cases p with
  | unmapped => rfl
  | register addr => rfl
  | host start cached =>
    cases hcached
    simp [Place.fetch, HostMemory.load, HostMemory.renderedAt]

theorem fetch_renderedAt_cached {r : MemoryRef} (hpointer : getPointerForRasterizerCache pluginFb vaddr = .ok r)
    (hcount : 0 < count) :
    ((Place.host r true).fetch pluginFb vaddr count (.renderedAt r)).1[0]? = some 1 := by
  have hin : HostMemory.InVirtualRegion pluginFb vaddr count r.backingMem r.offset :=
    ⟨0, hcount, by rw [Nat.add_zero, hpointer]; rfl⟩
  simp only [Place.fetch, if_true]
  rw [HostMemory.getElem?_load hcount]
  simp [HostMemory.flushVirtualRegion, hin, HostMemory.renderedAt]

end Fetch

namespace PageTable

structure AccessesAgree (t : PageTable) (pluginFb vaddr width : Nat) : Prop where
  read : ∀ (gpu : Gpu) (m : HostMemory), t.RenderedTracked pluginFb vaddr width m →
    (t.read pluginFb gpu vaddr width m).toOption.map Prod.fst =
      (t.readBlock pluginFb vaddr width m).toOption.map fun r => ofLittleEndian r.1
  write : ∀ (gpu : Gpu) (data : Nat) (m : HostMemory), data < 256 ^ width → t.RenderedTracked pluginFb vaddr width m →
    (t.write pluginFb gpu vaddr width data m).toOption =
      (t.writeBlock pluginFb vaddr (fun _ i => (toLittleEndian width data).getD i 0) width m).toOption

def SamePlaces (t : PageTable) (pluginFb vaddr width : Nat) : Prop :=
  (∃ e e', t.placeScalar pluginFb vaddr = .error e ∧ t.blockPlaces pluginFb vaddr width = .error e') ∨
  ∃ p next, t.placeScalar pluginFb vaddr = .ok p ∧ t.blockPlaces pluginFb vaddr width = .ok (p, next) ∧
    ∀ q ∈ next, p.Continues (pageSize - vaddr % pageSize) q

variable {t : PageTable} {pluginFb vaddr width : Nat} {p q : Place} {gpu : Gpu} {m : HostMemory}

theorem read_eq (h : t.placeScalar pluginFb vaddr = .ok p) (hp : ¬ p.IsRegister) :
    t.read pluginFb gpu vaddr width m =
      .ok (ofLittleEndian (p.fetch pluginFb vaddr width m).1, (p.fetch pluginFb vaddr width m).2) := by
  unfold read
  rw [h]
  cases p with
  | unmapped => simp [Place.fetch, ofLittleEndian_replicate_zero]
  | host start cached => rfl
  | register addr => exact absurd trivial hp

theorem write_eq {data : Nat} (h : t.placeScalar pluginFb vaddr = .ok p) (hp : ¬ p.IsRegister) :
    t.write pluginFb gpu vaddr width data m = .ok (p.put pluginFb vaddr (toLittleEndian width data) m) := by
  unfold write
  rw [h]
  cases p with
  | unmapped => rfl
  | host start cached => simp [Place.put]
  | register addr => exact absurd trivial hp

theorem not_isRegister_of_placeBlock {page offset : Nat} (h : t.placeBlock pluginFb page offset = .ok p) :
    ¬ p.IsRegister := by
  cases p with
  | unmapped => exact id
  | host start cached => exact id
  | register addr => exact absurd h placeBlock_ne_register

theorem placeBlock_of_blockPlaces {next : Option Place}
    (h : t.blockPlaces pluginFb vaddr width = .ok (p, next)) :
    t.placeBlock pluginFb (vaddr / pageSize) (vaddr % pageSize) = .ok p := by
  cases next with
  | none => exact blockPlaces_none h
  | some q => exact (blockPlaces_some h).1

theorem placeBlock_of_placeScalar_cached (h : t.placeScalar pluginFb vaddr = .ok p) (hcached : p.isCached = true) :
    t.placeBlock pluginFb (vaddr / pageSize) (vaddr % pageSize) = .ok p := by
  unfold placeScalar at h
  split at h
  · cases h
    cases hcached
  · dsimp only at h
    split_ifs at h
    · cases h
      cases hcached
    · cases h
      cases hcached
    · exact h

theorem SamePlaces.accessesAgree (hplugin : PluginFbOk pluginFb) (hvaddr : vaddr < 2 ^ 32) (hwidth : 0 < width)
    (hshort : width ≤ pageSize) (h : t.SamePlaces pluginFb vaddr width) : t.AccessesAgree pluginFb vaddr width := by
  have hwrite (data : Nat) (m : HostMemory) :
      t.writeBlock pluginFb vaddr (fun _ i => (toLittleEndian width data).getD i 0) width m =
        (t.blockPlaces pluginFb vaddr width).map (putPlaces pluginFb vaddr (toLittleEndian width data) m) := by
    have hlength := length_toLittleEndian width data
    have heq : t.writeBlock pluginFb vaddr _ (toLittleEndian width data).length m = _ :=
      writeBlock_eq hvaddr (hlength.symm ▸ hwidth) (hlength.symm ▸ hshort) m
    rwa [hlength] at heq
  rcases h with ⟨e, e', hscalar, hblock⟩ | ⟨p, next, hscalar, hblock, hnext⟩
  · constructor
    · intro gpu m _
      rw [readBlock_eq hvaddr hwidth hshort, hblock, read, hscalar]
      rfl
    · intro gpu data m _ _
      rw [hwrite, hblock, write, hscalar]
      rfl
  · have hp := not_isRegister_of_placeBlock (placeBlock_of_blockPlaces hblock)
    constructor
    · intro gpu m hm
      have hfetch : fetchPlaces pluginFb vaddr width m (p, next) = p.fetch pluginFb vaddr width m := by
        cases next with
        | none => rfl
        | some q => exact fetchPlaces_of_continues hplugin hshort hm hblock (hnext q rfl)
      rw [readBlock_eq hvaddr hwidth hshort, hblock, read_eq hscalar hp]
      simp [Except.map, Except.toOption, hfetch]
    · intro gpu data m _ hm
      have hput : putPlaces pluginFb vaddr (toLittleEndian width data) m (p, next) =
          p.put pluginFb vaddr (toLittleEndian width data) m := by
        cases next with
        | none => rfl
        | some q =>
          exact putPlaces_of_continues (by simpa) (by simpa) (by simpa using hblock) (hnext q rfl)
      rw [hwrite, hblock, write_eq hscalar hp]
      simp [Except.map, hput]

theorem fetchPlaces_first (hwidth : 0 < width) {next : Option Place} :
    ∃ count > 0, ∀ m, (fetchPlaces pluginFb vaddr width m (p, next)).1[0]? = (p.fetch pluginFb vaddr count m).1[0]? := by
  cases next with
  | none => exact ⟨width, hwidth, fun _ => rfl⟩
  | some q =>
    have hpos : 0 < pageSize - vaddr % pageSize := Nat.sub_pos_of_lt (Nat.mod_lt _ (by decide))
    refine ⟨_, hpos, fun m => ?_⟩
    rw [fetchPlaces, List.getElem?_append_left (by rwa [Place.length_fetch])]

theorem fetchPlaces_second :
    (fetchPlaces pluginFb vaddr width m (p, some q)).1[pageSize - vaddr % pageSize]? =
      (q.fetch pluginFb (vaddr + (pageSize - vaddr % pageSize)) (width - (pageSize - vaddr % pageSize))
        (p.fetch pluginFb vaddr (pageSize - vaddr % pageSize) m).2).1[0]? := by
  rw [fetchPlaces, List.getElem?_append_right (by rw [Place.length_fetch]), Place.length_fetch, Nat.sub_self]

theorem length_fetchPlaces {next : Option Place} (h : t.blockPlaces pluginFb vaddr width = .ok (p, next)) :
    (fetchPlaces pluginFb vaddr width m (p, next)).1.length = width := by
  cases next with
  | none => exact Place.length_fetch
  | some q =>
    have hcross := (blockPlaces_some h).2.1
    rw [fetchPlaces, List.length_append, Place.length_fetch, Place.length_fetch]
    omega

theorem renderedTracked_renderedAt {r : MemoryRef} {i : Nat} (hplugin : PluginFbOk pluginFb)
    (hpointer : getPointerForRasterizerCache pluginFb (vaddr + i) = .ok r) (htracks : t.Tracks ((vaddr + i) / pageSize))
    (hi : i ≤ pageSize) (hshort : width ≤ pageSize) : t.RenderedTracked pluginFb vaddr width (.renderedAt r) := by
  intro j hj hnot r' hpointer'
  have hne : r ≠ r' := by
    rintro rfl
    have hij : i = j := by
      rcases Nat.le_total i j with hle | hle
      · rw [← Nat.add_sub_cancel' hle, ← Nat.add_assoc] at hpointer'
        have := getPointer_injective hplugin hpointer hpointer' (by omega)
        omega
      · rw [← Nat.add_sub_cancel' hle, ← Nat.add_assoc] at hpointer
        have := getPointer_injective hplugin hpointer' hpointer (by omega)
        omega
    exact hnot (hij ▸ htracks)
  simp [HostMemory.renderedAt, hne]

theorem renderedTracked_plain {bytes : BackingMem → Nat → UInt8} :
    t.RenderedTracked pluginFb vaddr width (.plain bytes) := fun _ _ _ _ _ => rfl

section Agree

variable {p' : Place} {next : Option Place}

private theorem not_isRegister_of_agree (hvaddr : vaddr < 2 ^ 32) (hwidth : 0 < width) (hshort : width ≤ pageSize)
    (h : t.AccessesAgree pluginFb vaddr width) (hscalar : t.placeScalar pluginFb vaddr = .ok p)
    (hblock : t.blockPlaces pluginFb vaddr width = .ok (p', next)) : ¬ p.IsRegister := by
  intro hregister
  cases p with
  | unmapped => exact hregister
  | host start cached => exact hregister
  | register addr =>
    have hvalue (x : Nat) := h.read ⟨fun _ => x, fun _ _ m => m⟩ (.plain fun _ _ => 0) renderedTracked_plain
    simp only [read, hscalar, readBlock_eq hvaddr hwidth hshort, hblock, Except.map, Except.toOption,
      Option.map_some, Option.some.injEq] at hvalue
    have hone : 1 % 256 ^ width = 1 := Nat.one_mod_eq_one.mpr (by
      have := Nat.one_lt_pow hwidth.ne' (by decide : 1 < 256)
      omega)
    have := (hvalue 0).trans (hvalue 1).symm
    rw [hone, Nat.zero_mod] at this
    exact absurd this (by decide)

private theorem fetch_of_agree (hvaddr : vaddr < 2 ^ 32) (hwidth : 0 < width) (hshort : width ≤ pageSize)
    (h : t.AccessesAgree pluginFb vaddr width) (hscalar : t.placeScalar pluginFb vaddr = .ok p) (hp : ¬ p.IsRegister)
    (hblock : t.blockPlaces pluginFb vaddr width = .ok (p', next)) (hm : t.RenderedTracked pluginFb vaddr width m) :
    (p.fetch pluginFb vaddr width m).1 = (fetchPlaces pluginFb vaddr width m (p', next)).1 := by
  have hvalue := h.read ⟨fun _ => 0, fun _ _ m => m⟩ m hm
  simp only [read_eq hscalar hp, readBlock_eq hvaddr hwidth hshort, hblock, Except.map, Except.toOption,
    Option.map_some, Option.some.injEq] at hvalue
  exact ofLittleEndian_inj (by rw [Place.length_fetch, length_fetchPlaces hblock]) hvalue

private theorem eq_of_agree (hwidth : 0 < width) (hshort : width ≤ pageSize) (hplugin : PluginFbOk pluginFb)
    (hscalar : t.placeScalar pluginFb vaddr = .ok p) (hp : ¬ p.IsRegister)
    (hblock : t.blockPlaces pluginFb vaddr width = .ok (p', next))
    (hbytes : ∀ m, t.RenderedTracked pluginFb vaddr width m →
      (p.fetch pluginFb vaddr width m).1 = (fetchPlaces pluginFb vaddr width m (p', next)).1) : p = p' := by
  have hfirst := placeBlock_of_blockPlaces hblock
  obtain ⟨count, hcount, hfetch⟩ : ∃ count > 0, ∀ m, (fetchPlaces pluginFb vaddr width m (p', next)).1[0]? =
      (p'.fetch pluginFb vaddr count m).1[0]? := fetchPlaces_first hwidth
  have hstart : p.startOf = p'.startOf := by
    apply byteAt_injective
    intro bytes
    have hbyte := congrArg (·[0]?) (hbytes (.plain bytes) renderedTracked_plain)
    simpa only [hfetch, fetch_plain_fst hwidth, fetch_plain_fst hcount, map_advance_zero, Option.some.injEq] using hbyte
  cases hcached : p.isCached with
  | true =>
    have := placeBlock_of_placeScalar_cached hscalar hcached
    rw [hfirst] at this
    exact (Except.ok.inj this).symm
  | false =>
    refine Place.eq_of_startOf hp (not_isRegister_of_placeBlock hfirst) hstart ?_
    rw [hcached, eq_comm, Bool.eq_false_iff]
    intro hcached'
    cases p' with
    | unmapped => cases hcached'
    | register addr => cases hcached'
    | host start cached' =>
      cases hcached'
      have hpointer := getPointer_of_placeBlock hfirst
      rw [Nat.div_add_mod'] at hpointer
      have hm : t.RenderedTracked pluginFb vaddr width (.renderedAt start) :=
        renderedTracked_renderedAt (i := 0) hplugin hpointer ((placeBlock_cached_iff hfirst).mp rfl) (by simp) hshort
      have hbyte := congrArg (·[0]?) (hbytes _ hm)
      simp only [hfetch, fetch_renderedAt_cached hpointer hcount, fetch_renderedAt_uncached hcached] at hbyte
      simp [hwidth] at hbyte

private theorem continues_of_agree (hshort : width ≤ pageSize) (hplugin : PluginFbOk pluginFb)
    (hblock : t.blockPlaces pluginFb vaddr width = .ok (p, some q))
    (hbytes : ∀ m, t.RenderedTracked pluginFb vaddr width m →
      (p.fetch pluginFb vaddr width m).1 = (fetchPlaces pluginFb vaddr width m (p, some q)).1) :
    p.Continues (pageSize - vaddr % pageSize) q := by
  obtain ⟨hfirst, hcross, hnext⟩ := blockPlaces_some hblock
  have hmod : vaddr % pageSize < pageSize := Nat.mod_lt _ (by decide)
  have hin : pageSize - vaddr % pageSize < width := by omega
  have hrest : 0 < width - (pageSize - vaddr % pageSize) := Nat.sub_pos_of_lt hin
  have hstart : p.startOf.map (·.advance (pageSize - vaddr % pageSize)) = q.startOf := by
    apply byteAt_injective
    intro bytes
    have hbyte := congrArg (·[pageSize - vaddr % pageSize]?) (hbytes (.plain bytes) renderedTracked_plain)
    simpa only [fetchPlaces_second, fetch_plain_snd, fetch_plain_fst hin, fetch_plain_fst hrest,
      map_advance_zero, Option.some.injEq] using hbyte
  refine Place.continues_of_startOf (not_isRegister_of_placeBlock hfirst) (not_isRegister_of_placeBlock hnext) hstart ?_
  intro hcached
  by_contra hnot
  rw [Bool.not_eq_true] at hnot
  cases q with
  | unmapped => cases hcached
  | register addr => cases hcached
  | host start cached' =>
    cases hcached
    have hpointer := getPointer_of_placeBlock hnext
    have haddr : (vaddr / pageSize + 1) * pageSize + 0 = vaddr + (pageSize - vaddr % pageSize) := by
      simp only [pageSize]
      omega
    have hpage : (vaddr + (pageSize - vaddr % pageSize)) / pageSize = vaddr / pageSize + 1 := by
      simp only [pageSize]
      omega
    rw [haddr] at hpointer
    have hm : t.RenderedTracked pluginFb vaddr width (.renderedAt start) :=
      renderedTracked_renderedAt hplugin hpointer (by rw [hpage]; exact (placeBlock_cached_iff hnext).mp rfl) (by omega)
        hshort
    have hbyte := congrArg (·[pageSize - vaddr % pageSize]?) (hbytes _ hm)
    simp only [fetchPlaces_second, fetch_renderedAt_uncached hnot, fetch_renderedAt_cached hpointer hrest] at hbyte
    simp [hin] at hbyte

theorem AccessesAgree.samePlaces (hplugin : PluginFbOk pluginFb) (hvaddr : vaddr < 2 ^ 32) (hwidth : 0 < width)
    (hshort : width ≤ pageSize) (h : t.AccessesAgree pluginFb vaddr width) : t.SamePlaces pluginFb vaddr width := by
  have hread := h.read ⟨fun _ => 0, fun _ _ m => m⟩ (.plain fun _ _ => 0) renderedTracked_plain
  rw [readBlock_eq hvaddr hwidth hshort] at hread
  cases hscalar : t.placeScalar pluginFb vaddr with
  | error e =>
    cases hblock : t.blockPlaces pluginFb vaddr width with
    | error e' => exact .inl ⟨e, e', hscalar, hblock⟩
    | ok places => simp [PageTable.read, hscalar, hblock, Except.map, Except.toOption] at hread
  | ok p =>
    cases hblock : t.blockPlaces pluginFb vaddr width with
    | error e' => cases p <;> simp [PageTable.read, hscalar, hblock, Except.map, Except.toOption] at hread
    | ok places =>
      obtain ⟨p', next⟩ := places
      have hp := not_isRegister_of_agree hvaddr hwidth hshort h hscalar hblock
      have hbytes (m : HostMemory) := fetch_of_agree (m := m) hvaddr hwidth hshort h hscalar hp hblock
      obtain rfl := eq_of_agree hwidth hshort hplugin hscalar hp hblock hbytes
      refine .inr ⟨p, next, hscalar, hblock, ?_⟩
      rintro q rfl
      exact continues_of_agree hshort hplugin hblock hbytes

end Agree

/-- A number and the block of its bytes agree exactly when they are found at the same place, and the functions for
blocks stay within the page table exactly for the blocks that stay within the address space. -/
theorem accesses_agree_iff {pluginFb : Nat} (hplugin : PluginFbOk pluginFb) :
    (∀ (t : PageTable) (vaddr : Nat), vaddr < 2 ^ 32 → ∀ width ∈ [1, 2, 4, 8],
      (t.AccessesAgree pluginFb vaddr width ↔ t.SamePlaces pluginFb vaddr width)) ∧
    (∀ addr size : Nat, addr < 2 ^ 32 →
      ((∀ (t : PageTable) m, t.readBlock pluginFb addr size m ≠ .error .pageIndex) ↔
        size = 0 ∨ addr + size ≤ 2 ^ 32) ∧
      (∀ source, (∀ (t : PageTable) m, t.writeBlock pluginFb addr source size m ≠ .error .pageIndex) ↔
        size = 0 ∨ addr + size ≤ 2 ^ 32) ∧
      ((∀ (t : PageTable) m, t.zeroBlock pluginFb addr size m ≠ .error .pageIndex) ↔
        size = 0 ∨ addr + size ≤ 2 ^ 32)) ∧
    (∀ destAddr srcAddr size : Nat, destAddr < 2 ^ 32 → srcAddr < 2 ^ 32 →
      ((∀ (t dest : PageTable) m, t.copyBlock pluginFb dest destAddr srcAddr size m ≠ .error .pageIndex) ↔
        size = 0 ∨ srcAddr + size ≤ 2 ^ 32 ∧
          (destAddr + size ≤ 2 ^ 32 ∨ destAddr % pageSize = srcAddr % pageSize))) := by
  refine ⟨fun t vaddr hvaddr width hwidth => ?_, fun addr size haddr => ?_, fun destAddr srcAddr size hdest hsrc => ?_⟩
  · have hbounds : ∀ width ∈ [1, 2, 4, 8], 0 < width ∧ width ≤ pageSize := by decide
    obtain ⟨hpos, hshort⟩ := hbounds width hwidth
    exact ⟨fun h => h.samePlaces hplugin hvaddr hpos hshort, fun h => h.accessesAgree hplugin hvaddr hpos hshort⟩
  · exact ⟨readBlock_inBounds_iff haddr, fun source => writeBlock_inBounds_iff source haddr,
      writeBlock_inBounds_iff _ haddr⟩
  · exact copyBlock_inBounds_iff hdest hsrc

def onePage : PageTable := clear.set 0x100 .memory (some ⟨.fcram, 0⟩)

theorem onePage_agrees : onePage.AccessesAgree 0 0x100FFC 4 ∧
    (∀ (t : PageTable) m, t.readBlock 0 0xFFFFFFFE 2 m ≠ .error .pageIndex) ∧
      ∀ (t dest : PageTable) m, t.copyBlock 0 dest 0xFFFFF000 0x100000 0x2000 m ≠ .error .pageIndex :=
  ⟨((accesses_agree_iff (.inl rfl)).1 onePage 0x100FFC (by decide) 4 (by decide)).mpr
      (.inr ⟨.host ⟨.fcram, 0xFFC⟩ false, none, rfl, rfl, fun _ h => nomatch h⟩),
    ((accesses_agree_iff (.inl rfl)).2.1 0xFFFFFFFE 2 (by decide)).1.mpr (by decide),
    ((accesses_agree_iff (.inl rfl)).2.2 0xFFFFF000 0x100000 0x2000 (by decide) (by decide)).mpr (by decide)⟩

/-- A number that crosses the end of the page is not the number of its bytes, and a block at the end of the address
space leaves the page table. -/
theorem onePage_disagrees : ¬ onePage.AccessesAgree 0 0x100FFE 4 ∧
    onePage.readBlock 0 0xFFFFFFFF 2 (.plain fun _ _ => 0) = .error .pageIndex := by
  refine ⟨fun h => ?_, rfl⟩
  rcases h.samePlaces (.inl rfl) (by decide) (by decide) (by decide) with
    ⟨e, e', hscalar, -⟩ | ⟨p, next, hscalar, hblock, hnext⟩
  · cases hscalar
  · cases hscalar
    cases hblock
    exact hnext _ rfl

end PageTable

end SweepDSEmu.Memory
