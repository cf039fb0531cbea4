import SweepDSEmu.Memory.BlockAccess

/-!
# The pages that blocks reach

The functions for blocks stay within the page table exactly when the block stays within the address space.
-/

namespace SweepDSEmu.Memory.PageTable

section Loop

variable {σ : Type*} {turn : Nat → Nat → Nat → σ → Except AccessFault σ} {I : Nat → Nat → Nat → σ → Prop}
variable {turns page offset remaining : Nat} {s : σ}

theorem overPages_ne_pageIndex
    (hpage : ∀ page offset remaining s, I page offset remaining s → 0 < remaining → page < pageTableNumEntries)
    (hturn : ∀ page offset remaining s, I page offset remaining s → 0 < remaining →
      turn page offset (min (pageSize - offset) remaining) s ≠ .error .pageIndex ∧
        ∀ s', turn page offset (min (pageSize - offset) remaining) s = .ok s' →
          I (page + 1) 0 (remaining - min (pageSize - offset) remaining) s')
    (h : I page offset remaining s) : overPages turn turns page offset remaining s ≠ .error .pageIndex := by
  induction turns generalizing page offset remaining s with
  | zero => simp [overPages]
  | succ turns ih =>
    rw [overPages]
    by_cases hremaining : remaining = 0
    · simp [hremaining]
    · have hpos := Nat.pos_of_ne_zero hremaining
      obtain ⟨hne, hnext⟩ := hturn _ _ _ _ h hpos
      rw [if_neg hremaining, if_neg (not_le.mpr (hpage _ _ _ _ h hpos))]
      dsimp only
      split
      · rename_i e heq
        rwa [heq] at hne
      · rename_i s' heq
        exact ih (hnext s' heq)

theorem overPages_eq_pageIndex
    (hturn : ∀ page offset remaining s, I page offset remaining s → page < pageTableNumEntries →
      turn page offset (min (pageSize - offset) remaining) s = .error .pageIndex ∨
        ∃ s', turn page offset (min (pageSize - offset) remaining) s = .ok s' ∧
          I (page + 1) 0 (remaining - min (pageSize - offset) remaining) s')
    (hI : ∀ page offset remaining s, I page offset remaining s → 0 < remaining ∧ offset < pageSize)
    (hturns : remaining ≤ turns) (h : I page offset remaining s) :
    overPages turn turns page offset remaining s = .error .pageIndex := by
  induction turns generalizing page offset remaining s with
  | zero =>
    have := (hI _ _ _ _ h).1
    omega
  | succ turns ih =>
    obtain ⟨hpos, hoffset⟩ := hI _ _ _ _ h
    rw [overPages, if_neg hpos.ne']
    split
    · rfl
    · rename_i hpage
      rcases hturn _ _ _ _ h (not_le.mp hpage) with heq | ⟨s', heq, hnext⟩
      · simp only [heq]
      · simp only [heq]
        exact ih (by omega) hnext

theorem overPages_total (hturn : ∀ page offset amount s, ∃ s', turn page offset amount s = .ok s') :
    overPages turn turns page offset remaining s = .error .pageIndex ∨
      ∃ s', overPages turn turns page offset remaining s = .ok s' := by
  induction turns generalizing page offset remaining s with
  | zero => exact .inr ⟨s, rfl⟩
  | succ turns ih =>
    rw [overPages]
    split
    · exact .inr ⟨s, rfl⟩
    · split
      · exact .inl rfl
      · obtain ⟨s', heq⟩ := hturn page offset (min (pageSize - offset) remaining) s
        simp only [heq]
        exact ih

end Loop

/-- What is left of a block stays within the address space. -/
def Fits (page offset remaining : Nat) : Prop := remaining = 0 ∨ page * pageSize + offset + remaining ≤ 2 ^ 32

variable {t : PageTable} {pluginFb page offset amount remaining addr size : Nat} {m : HostMemory}

theorem Fits.page_lt (h : Fits page offset remaining) (hpos : 0 < remaining) : page < pageTableNumEntries := by
  simp only [Fits, pageSize, pageTableNumEntries] at *
  omega

theorem Fits.next (h : Fits page offset remaining) :
    Fits (page + 1) 0 (remaining - min (pageSize - offset) remaining) := by
  simp only [Fits, pageSize] at *
  omega

theorem not_fits_next (hpage : page < pageTableNumEntries) (hoffset : offset < pageSize)
    (h : 2 ^ 32 < page * pageSize + offset + remaining) :
    2 ^ 32 < (page + 1) * pageSize + 0 + (remaining - min (pageSize - offset) remaining) := by
  have hend : (page + 1) * pageSize ≤ 2 ^ 32 := Nat.mul_le_mul_right pageSize hpage
  rw [Nat.add_mul, Nat.one_mul] at hend ⊢
  omega

theorem fits_start_iff : Fits (addr / pageSize) (addr % pageSize) size ↔ size = 0 ∨ addr + size ≤ 2 ^ 32 := by
  rw [Fits, Nat.div_add_mod']

theorem placeBlock_ne_pageIndex : t.placeBlock pluginFb page offset ≠ .error .pageIndex := by
  unfold placeBlock
  split
  · simp
  · split <;> simp
  · split <;> simp
  · split <;> simp
  · split <;> simp

theorem readPage_ne_pageIndex {s : List UInt8 × HostMemory} :
    t.readPage pluginFb page offset amount s ≠ .error .pageIndex := by
  unfold readPage
  split
  · rename_i e heq
    intro he
    cases he
    exact placeBlock_ne_pageIndex heq
  · simp
  · simp

variable {source : HostMemory → Nat → UInt8}

theorem writePage_ne_pageIndex {s : Nat × HostMemory} :
    t.writePage pluginFb source page offset amount s ≠ .error .pageIndex := by
  unfold writePage
  split
  · rename_i e heq
    intro he
    cases he
    exact placeBlock_ne_pageIndex heq
  · simp
  · simp

theorem readBlock_ne_pageIndex (h : size = 0 ∨ addr + size ≤ 2 ^ 32) :
    t.readBlock pluginFb addr size m ≠ .error .pageIndex :=
  overPages_ne_pageIndex (I := fun page offset remaining _ => Fits page offset remaining)
    (fun _ _ _ _ h hpos => h.page_lt hpos) (fun _ _ _ _ h _ => ⟨readPage_ne_pageIndex, fun _ _ => h.next⟩)
    (fits_start_iff.mpr h)

theorem map_ne_pageIndex {σ τ : Type*} {x : Except AccessFault σ} {f : σ → τ} (h : x ≠ .error .pageIndex) :
    x.map f ≠ .error .pageIndex := by
  cases x with
  | ok a => simp [Except.map]
  | error e => simpa [Except.map] using h

theorem writeBlock_ne_pageIndex (h : size = 0 ∨ addr + size ≤ 2 ^ 32) :
    t.writeBlock pluginFb addr source size m ≠ .error .pageIndex :=
  map_ne_pageIndex <| overPages_ne_pageIndex (I := fun page offset remaining _ => Fits page offset remaining)
    (fun _ _ _ _ h hpos => h.page_lt hpos) (fun _ _ _ _ h _ => ⟨writePage_ne_pageIndex, fun _ _ => h.next⟩)
    (fits_start_iff.mpr h)

/-- What is left of a block leaves the address space. -/
def Leaves (page offset remaining : Nat) : Prop :=
  0 < remaining ∧ offset < pageSize ∧ 2 ^ 32 < page * pageSize + offset + remaining

theorem Leaves.next (hpage : page < pageTableNumEntries) (h : Leaves page offset remaining) :
    Leaves (page + 1) 0 (remaining - min (pageSize - offset) remaining) := by
  obtain ⟨hpos, hoffset, hend⟩ := h
  have hnext := not_fits_next hpage hoffset hend
  refine ⟨?_, by decide, hnext⟩
  have hlast : (page + 1) * pageSize ≤ 2 ^ 32 := Nat.mul_le_mul_right pageSize hpage
  omega

theorem leaves_start (haddr : addr < 2 ^ 32) (h : 2 ^ 32 < addr + size) :
    Leaves (addr / pageSize) (addr % pageSize) size :=
  ⟨by omega, Nat.mod_lt _ (by decide), by rwa [Nat.div_add_mod']⟩

theorem overPages_of_leaves {σ : Type*} {turn : Nat → Nat → Nat → σ → Except AccessFault σ} {s : σ}
    (hturn : ∀ page offset amount s, ∃ s', turn page offset amount s = .ok s') (haddr : addr < 2 ^ 32)
    (h : 2 ^ 32 < addr + size) :
    overPages turn size (addr / pageSize) (addr % pageSize) size s = .error .pageIndex := by
  refine overPages_eq_pageIndex (I := fun page offset remaining _ => Leaves page offset remaining) ?_ ?_ le_rfl
    (leaves_start haddr h)
  · intro page offset remaining s hleaves hpage
    obtain ⟨s', heq⟩ := hturn page offset (min (pageSize - offset) remaining) s
    exact .inr ⟨s', heq, hleaves.next hpage⟩
  · intro page offset remaining s hleaves
    exact ⟨hleaves.1, hleaves.2.1⟩

/-- `ReadBlock` stays within the page table exactly for blocks that stay within the address space. -/
theorem readBlock_inBounds_iff (haddr : addr < 2 ^ 32) :
    (∀ (t : PageTable) m, t.readBlock pluginFb addr size m ≠ .error .pageIndex) ↔ size = 0 ∨ addr + size ≤ 2 ^ 32 := by
  refine ⟨fun h => ?_, fun h t m => readBlock_ne_pageIndex h⟩
  by_contra hnot
  refine h clear ⟨fun _ _ => 0, fun _ _ => none⟩ (overPages_of_leaves ?_ haddr (by omega))
  exact fun page offset amount s => ⟨_, rfl⟩

theorem writeBlock_clear (haddr : addr < 2 ^ 32) (h : 2 ^ 32 < addr + size) :
    clear.writeBlock pluginFb addr source size m = .error .pageIndex := by
  have hturn : ∀ page offset amount s, ∃ s', clear.writePage pluginFb source page offset amount s = .ok s' :=
    fun page offset amount s => ⟨_, rfl⟩
  rw [writeBlock, overPages_of_leaves hturn haddr h]
  rfl

theorem writeBlock_inBounds_iff (source : HostMemory → Nat → UInt8) (haddr : addr < 2 ^ 32) :
    (∀ (t : PageTable) m, t.writeBlock pluginFb addr source size m ≠ .error .pageIndex) ↔
      size = 0 ∨ addr + size ≤ 2 ^ 32 := by
  refine ⟨fun h => ?_, fun h t m => writeBlock_ne_pageIndex h⟩
  by_contra hnot
  exact h clear ⟨fun _ _ => 0, fun _ _ => none⟩ (writeBlock_clear haddr (by omega))

/-- What is left of a copy stays within both address spaces; the part at the end of the second one ends a page. -/
def CopyFits (page offset remaining destAddr : Nat) : Prop :=
  Fits page offset remaining ∧ offset < pageSize ∧ destAddr < 2 ^ 32 ∧
    (remaining = 0 ∨ destAddr + remaining ≤ 2 ^ 32 ∨ destAddr % pageSize = offset)

theorem CopyFits.next {destAddr : Nat} (h : CopyFits page offset remaining destAddr) :
    CopyFits (page + 1) 0 (remaining - min (pageSize - offset) remaining)
      ((destAddr + min (pageSize - offset) remaining) % 2 ^ 32) := by
  obtain ⟨hfits, hoffset, hlt, hdest⟩ := h
  refine ⟨hfits.next, by decide, Nat.mod_lt _ (by decide), ?_⟩
  simp only [pageSize] at *
  omega

theorem CopyFits.page_fits {destAddr : Nat} (h : CopyFits page offset remaining destAddr) :
    min (pageSize - offset) remaining = 0 ∨ destAddr + min (pageSize - offset) remaining ≤ 2 ^ 32 := by
  obtain ⟨-, hoffset, hlt, hdest⟩ := h
  simp only [pageSize] at *
  omega

variable {dest : PageTable} {destAddr srcAddr : Nat}

theorem copyPage_ne_pageIndex {s : Nat × HostMemory} (h : amount = 0 ∨ s.1 + amount ≤ 2 ^ 32) :
    t.copyPage pluginFb dest page offset amount s ≠ .error .pageIndex := by
  unfold copyPage
  split
  · rename_i e heq
    intro he
    cases he
    exact placeBlock_ne_pageIndex heq
  · exact map_ne_pageIndex (writeBlock_ne_pageIndex h)
  · exact map_ne_pageIndex (writeBlock_ne_pageIndex h)

theorem copyPage_fst {s s' : Nat × HostMemory} (h : t.copyPage pluginFb dest page offset amount s = .ok s') :
    s'.1 = (s.1 + amount) % 2 ^ 32 := by
  have hmap {x : Except AccessFault HostMemory} (h : (x.map fun m => ((s.1 + amount) % 2 ^ 32, m)) = .ok s') :
      s'.1 = (s.1 + amount) % 2 ^ 32 := by
    cases x with
    | error e => cases h
    | ok m => rw [← Except.ok.inj h]
  unfold copyPage at h
  split at h
  · cases h
  · exact hmap h
  · exact hmap h

def CopyLeaves (page offset remaining destAddr : Nat) : Prop :=
  0 < remaining ∧ offset < pageSize ∧ destAddr < 2 ^ 32 ∧
    (2 ^ 32 < page * pageSize + offset + remaining ∨
      2 ^ 32 < destAddr + remaining ∧ destAddr % pageSize ≠ offset ∧ page * pageSize + offset + remaining ≤ 2 ^ 32)

theorem CopyLeaves.next (hpage : page < pageTableNumEntries) (h : CopyLeaves page offset remaining destAddr)
    (hfits : destAddr + min (pageSize - offset) remaining ≤ 2 ^ 32) :
    CopyLeaves (page + 1) 0 (remaining - min (pageSize - offset) remaining)
      ((destAddr + min (pageSize - offset) remaining) % 2 ^ 32) := by
  obtain ⟨hpos, hoffset, hlt, hsrc | ⟨hdest, hmod, hsrc⟩⟩ := h
  · obtain ⟨hpos', hoffset', hsrc'⟩ := Leaves.next hpage ⟨hpos, hoffset, hsrc⟩
    exact ⟨hpos', hoffset', Nat.mod_lt _ (by decide), .inl hsrc'⟩
  · refine ⟨?_, by decide, Nat.mod_lt _ (by decide), .inr ?_⟩
    · omega
    · have hnext := (Fits.next (.inr hsrc) : Fits (page + 1) 0 (remaining - min (pageSize - offset) remaining))
      simp only [Fits, pageSize] at *
      omega

/-- Copying where nothing is mapped goes on or leaves the second address space. -/
theorem copyPage_clear {s : Nat × HostMemory} :
    clear.copyPage pluginFb clear page offset amount s = .error .pageIndex ∨
      ∃ s', clear.copyPage pluginFb clear page offset amount s = .ok s' := by
  have heq : clear.copyPage pluginFb clear page offset amount s =
      (clear.zeroBlock pluginFb s.1 amount s.2).map fun m => ((s.1 + amount) % 2 ^ 32, m) := rfl
  have hturn : ∀ page offset amount s, ∃ s', clear.writePage pluginFb (fun _ _ => 0) page offset amount s = .ok s' :=
    fun page offset amount s => ⟨_, rfl⟩
  rw [heq, zeroBlock, writeBlock]
  rcases overPages_total hturn with h | ⟨s', h⟩
  · exact .inl (by rw [h]; rfl)
  · exact .inr ⟨_, by rw [h]; rfl⟩

theorem fits_of_copyPage_clear {s s' : Nat × HostMemory} (hlt : s.1 < 2 ^ 32)
    (h : clear.copyPage pluginFb clear page offset amount s = .ok s') : s.1 + amount ≤ 2 ^ 32 := by
  by_contra hnot
  have heq : clear.copyPage pluginFb clear page offset amount s =
      (clear.zeroBlock pluginFb s.1 amount s.2).map fun m => ((s.1 + amount) % 2 ^ 32, m) := rfl
  rw [heq, zeroBlock, writeBlock_clear hlt (by omega)] at h
  cases h

/-- `CopyBlock` stays within both page tables exactly for blocks that stay within both address spaces, except that a
block may go on at the start of the second one when the pages end together. -/
theorem copyBlock_inBounds_iff (hdest : destAddr < 2 ^ 32) (hsrc : srcAddr < 2 ^ 32) :
    (∀ (t dest : PageTable) m, t.copyBlock pluginFb dest destAddr srcAddr size m ≠ .error .pageIndex) ↔
      size = 0 ∨ srcAddr + size ≤ 2 ^ 32 ∧
        (destAddr + size ≤ 2 ^ 32 ∨ destAddr % pageSize = srcAddr % pageSize) := by
  constructor
  · intro h
    by_contra hnot
    have hleaves : CopyLeaves (srcAddr / pageSize) (srcAddr % pageSize) size destAddr := by
      refine ⟨by omega, Nat.mod_lt _ (by decide), hdest, ?_⟩
      rw [Nat.div_add_mod']
      omega
    have hloop : overPages (clear.copyPage pluginFb clear) size (srcAddr / pageSize) (srcAddr % pageSize) size
        (destAddr, ⟨fun _ _ => 0, fun _ _ => none⟩) = .error .pageIndex := by
      refine overPages_eq_pageIndex (I := fun page offset remaining s => CopyLeaves page offset remaining s.1) ?_ ?_
        le_rfl hleaves
      · intro page offset remaining s hleaves hpage
        rcases copyPage_clear with herror | ⟨s', heq⟩
        · exact .inl herror
        · refine .inr ⟨s', heq, ?_⟩
          rw [copyPage_fst heq]
          exact hleaves.next hpage (fits_of_copyPage_clear hleaves.2.2.1 heq)
      · intro page offset remaining s hleaves
        exact ⟨hleaves.1, hleaves.2.1⟩
    exact h clear clear _ (by rw [copyBlock, hloop]; rfl)
  · intro h t dest m
    have hfits : CopyFits (srcAddr / pageSize) (srcAddr % pageSize) size destAddr := by
      refine ⟨fits_start_iff.mpr (by omega), Nat.mod_lt _ (by decide), hdest, by omega⟩
    apply map_ne_pageIndex
    refine overPages_ne_pageIndex (I := fun page offset remaining s => CopyFits page offset remaining s.1) ?_ ?_ hfits
    · intro page offset remaining s hfits hpos
      exact hfits.1.page_lt hpos
    · intro page offset remaining s hfits _
      refine ⟨copyPage_ne_pageIndex hfits.page_fits, fun s' heq => ?_⟩
      rw [copyPage_fst heq]
      exact hfits.next

end SweepDSEmu.Memory.PageTable
