import SweepDSEmu.Kernel.VMManagerRun

/-!
# The memory behind an address space

`backing` is the part of the page map that says where a page lies in host memory.  Only `MapBackingMemory` adds to it,
only `UnmapRange` takes away from it, and `GetBackingBlocksForRange` reads it.
-/

namespace SweepDSEmu

open VirtualMemoryArea

namespace VMManager

def backing (m : VMManager) (x : Nat) : Option Nat :=
  (absAt m.vmaMap x).bind fun a => if a.type = .backingMemory then some a.backingMemory else none

structure Intact (m : VMManager) : Prop where
  tiled : m.Tiled
  unlocked : m.isLocked = false

theorem intact_reset : reset.Intact := ⟨⟨rfl, rfl, by decide, rfl⟩, rfl⟩

theorem backing_reset (x : Nat) : reset.backing x = none := by
  unfold backing reset
  rw [absAt_singleton]
  split
  · rfl
  · rfl

variable {m m' : VMManager}

private theorem backing_eq {x : Nat} {a : Option PageAttr} (h : absAt m.vmaMap x = a) :
    m.backing x = a.bind fun a => if a.type = .backingMemory then some a.backingMemory else none := by
  unfold backing
  rw [h]

private theorem backing_congr (h : ∀ x, absAt m'.vmaMap x = absAt m.vmaMap x) (x : Nat) :
    m'.backing x = m.backing x := by
  unfold backing
  rw [h x]

variable {blocks : List (Nat × Nat)} {r : ResultCode}

private theorem StepOk.intact {op : Op} (h : StepOk m op r m') (hm : m.Intact) : m'.Intact :=
  ⟨h.tiled, h.locked.trans hm.unlocked⟩

private theorem StepOk.backing_eq {op : Op} (h : StepOk m op r m')
    (hop : ∀ x a, (op.requested x a).type = a.type ∧ (op.requested x a).backingMemory = a.backingMemory) (x : Nat) :
    m'.backing x = m.backing x := by
  by_cases hr : r = .success
  · unfold backing
    rw [h.changes hr x]
    split
    · cases absAt m.vmaMap x with
      | none => rfl
      | some a =>
        obtain ⟨h1, h2⟩ := hop x a
        simp only [Option.map_some, Option.bind_some, h1, h2]
    · rfl
  · exact backing_congr (h.keeps hr) x

theorem changeMemoryState_backing (hm : m.Intact) {target size : Nat} (ht : target < 2 ^ 32) (hs : size < 2 ^ 32)
    {es ns : MemoryState} {ep np : VMAPermission} (h : m.changeMemoryState target size es ep ns np = some (r, m')) :
    m'.Intact ∧ ∀ x, m'.backing x = m.backing x := by
  have hop : Op.IsU32 (.changeMemoryState target size es ep ns np) := ⟨ht, hs⟩
  have hok := exec_ok hm.tiled hm.unlocked hop h
  exact ⟨hok.intact hm, hok.backing_eq fun _ _ => ⟨rfl, rfl⟩⟩

theorem reprotectRange_backing (hm : m.Intact) {target size : Nat} (ht : target < 2 ^ 32) (hs : size < 2 ^ 32)
    {p : VMAPermission} (h : m.reprotectRange target size p = some (r, m')) :
    m'.Intact ∧ ∀ x, m'.backing x = m.backing x := by
  have hop : Op.IsU32 (.reprotectRange target size p) := ⟨ht, hs⟩
  have hok := exec_ok hm.tiled hm.unlocked hop h
  exact ⟨hok.intact hm, hok.backing_eq fun _ _ => ⟨rfl, rfl⟩⟩

theorem unmapRange_backing (hm : m.Intact) {target size : Nat} (ht : target < 2 ^ 32) (hs : size < 2 ^ 32) (h : m.unmapRange target size = some (r, m')) :
    m'.Intact ∧ ∀ x, m'.backing x =
      if r = .success ∧ target ≤ x ∧ x < target + size then none else m.backing x := by
  have hop : Op.IsU32 (.unmapRange target size) := ⟨ht, hs⟩
  have hok := exec_ok hm.tiled hm.unlocked hop h
  refine ⟨hok.intact hm, fun x => ?_⟩
  by_cases hr : r = .success
  · have hchange : absAt m'.vmaMap x = if target ≤ x ∧ x < target + size then
        (absAt m.vmaMap x).map fun _ => ⟨.free, VMAPermission.none, .free, 0⟩ else absAt m.vmaMap x := hok.changes hr x
    unfold backing
    rw [hchange]
    by_cases hx : target ≤ x ∧ x < target + size
    · rw [if_pos hx, if_pos ⟨hr, hx⟩]
      cases absAt m.vmaMap x with
      | none => rfl
      | some a => rfl
    · rw [if_neg hx, if_neg fun h => hx h.2]
  · rw [if_neg fun h => hr h.1]
    exact backing_congr (hok.keeps hr) x

theorem unmapRange_mapped (hm : m.Intact) {target size : Nat} (ht : target < 2 ^ 32) (hs : size < 2 ^ 32)
    (h : m.unmapRange target size = some (.success, m')) {x : Nat} (hx : target ≤ x) (hx' : x < target + size) :
    m.backing x ≠ none := by
  unfold unmapRange at h
  obtain ⟨-, -, h⟩ := Option.bind_eq_some_iff.mp h
  obtain ⟨c, hc, h⟩ := Option.bind_eq_some_iff.mp h
  have hr := rangeOk_of_carve ht hs hc
  have hfits := hr.fits
  rcases carveVMARange_eq hm.tiled hr with he | ⟨pre, mid, tail, -, hfree, -⟩
  · rw [he] at hc
    cases hc
    cases h
  · have htiles := hm.tiled
    unfold Tiled at htiles
    obtain ⟨pre, v, post, hv, h1, h2⟩ := htiles.find (Nat.zero_le x) (by omega)
    rw [hv] at htiles
    have habs : absAt m.vmaMap x = some (v.attrAt x) := by
      rw [hv]
      exact absAt_split_mem htiles h1 h2
    have htype := hfree x hx hx' _ habs
    rw [backing_eq habs]
    cases hv : (v.attrAt x).type with
    | free => exact absurd hv htype
    | backingMemory => simp [hv]

theorem reprotect_backing (hm : m.Intact) {pre post : Areas} {v : VirtualMemoryArea}
    (hv : m.vmaMap = pre ++ (v.base, v) :: post) (p : VMAPermission) :
    ∃ h m', m.reprotect v.base p = some (h, m') ∧ m'.Intact ∧ ∀ x, m'.backing x = m.backing x := by
  obtain ⟨ht, heq⟩ := updateVMA_eq (f := reprotected p) hm.tiled hv rfl rfl
  obtain ⟨ht', habs⟩ := mergedAreas_tiles ht
  refine ⟨(merged pre (reprotected p v) post).2.1.base, { m with vmaMap := mergedAreas pre (reprotected p v) post },
    ?_, ⟨ht', hm.unlocked⟩, ?_⟩
  · unfold reprotect
    simp only [guard, if_pos hm.unlocked, Option.bind_eq_bind]
    exact heq
  · intro x
    unfold backing
    have hold := hm.tiled
    unfold Tiled at hold
    rw [hv] at hold
    obtain ⟨hpre, -, -, -⟩ := tiles_split.mp hold
    rw [habs x, hv, absAt_append, absAt_append, absAt_cons, absAt_cons]
    have hstop : (reprotected p v).stop = v.stop := rfl
    have hbase : (reprotected p v).base = v.base := rfl
    rw [hstop, hbase]
    by_cases hx : v.base ≤ x ∧ x < v.stop
    · rw [if_pos hx, if_pos hx, hpre.absAt_outside (Or.inr hx.1)]
      rfl
    · rw [if_neg hx, if_neg hx]

/-- The pages that `MapBackingMemory` and the following `Reprotect` add. -/
theorem mapBackingMemory_backing (hm : m.Intact) {target memory size : Nat} (ht : target < 2 ^ 32) (hs : size < 2 ^ 32)
    {state : MemoryState} {r : Except ResultCode VMAIter}
    (h : m.mapBackingMemory target memory size state = some (r, m')) :
    m'.Intact ∧ (∀ x p, m'.backing x = some p →
      m.backing x = some p ∨ target ≤ x ∧ x < target + size ∧ p = memory + (x - target)) ∧
      ∀ k ∈ r.toOption, target + size ≤ maxAddress ∧
        ∃ pre v post, m'.vmaMap = pre ++ (v.base, v) :: post ∧ v.base = k := by
  obtain ⟨code, hexec, hcode⟩ : ∃ code, m.exec (.mapBackingMemory target memory size state) = some (code, m') ∧
      (code = .success ∨ code ≠ .success) := by
    cases r with
    | ok k => exact ⟨.success, by simp only [exec, h, Option.map_some], Or.inl rfl⟩
    | error e => exact ⟨e, by simp only [exec, h, Option.map_some], em _⟩
  have hop : Op.IsU32 (.mapBackingMemory target memory size state) := ⟨ht, hs⟩
  have hok := exec_ok hm.tiled hm.unlocked hop hexec
  refine ⟨hok.intact hm, ?_, ?_⟩
  · intro x p hp
    rcases hcode with hcode | hcode
    · unfold backing at hp
      rw [hok.changes hcode x] at hp
      split at hp
      · rename_i hx
        refine Or.inr ⟨hx.1, hx.2, ?_⟩
        cases ha : absAt m.vmaMap x with
        | none => rw [ha] at hp; cases hp
        | some a => rw [ha] at hp; cases hp; rfl
      · exact Or.inl hp
    · exact Or.inl ((backing_congr (hok.keeps hcode) x).symm.trans hp)
  · intro k hk
    obtain ⟨hmem, hb, hsz⟩ := mapBackingMemory_guards h
    rcases mapBackingMemory_eq hm.tiled hm.unlocked state hmem hb hsz hs with
      ⟨e, -, he⟩ | ⟨hn, -⟩ | ⟨pre, w, post, hc, -, heq⟩
    · rw [h] at he
      cases he
      cases hk
    · rw [h] at hn
      cases hn
    · rw [h] at heq
      cases heq
      cases hk
      obtain ⟨-, -, hpost⟩ := tiles_split.mp hc.tiles
      have hbase := hc.base_eq
      have hsize := hc.size_eq
      have hle := hpost.2.le
      exact ⟨by unfold stop at hle; omega, _, _, _, rfl, rfl⟩

/-- The blocks list the memory behind the addresses from `a` to `e`. -/
def Lists (m : VMManager) : List (Nat × Nat) → Nat → Nat → Prop
  | [], a, e => a = e
  | (memory, size) :: blocks, a, e =>
    (∀ i < size, m.backing (a + i) = some (memory + i)) ∧ Lists m blocks (a + size) e

private theorem lists_append {a b memory size : Nat} (h : Lists m blocks a b)
    (hnew : ∀ i < size, m.backing (b + i) = some (memory + i)) : Lists m (blocks ++ [(memory, size)]) a (b + size) := by
  induction blocks generalizing a with
  | nil =>
    obtain rfl : a = b := h
    exact ⟨hnew, rfl⟩
  | cons p blocks ih => exact ⟨h.1, ih h.2⟩

theorem backing_area (hm : m.Intact) {pre post : Areas} {v : VirtualMemoryArea}
    (hv : m.vmaMap = pre ++ (v.base, v) :: post) (htype : v.type = .backingMemory) {x : Nat} (hx : v.base ≤ x)
    (hx' : x < v.stop) : m.backing x = some (v.backingMemory + (x - v.base)) := by
  have ht := hm.tiled
  unfold Tiled at ht
  rw [hv] at ht
  have habs : absAt m.vmaMap x = some (v.attrAt x) := by
    rw [hv]
    exact absAt_split_mem ht hx hx'
  rw [backing_eq habs]
  simp only [Option.bind_some, attrAt, htype, if_true]

private theorem backingBlocksLoop_lists (hm : m.Intact) {stop : Nat} (fuel a b : Nat) (blocks result : List (Nat × Nat))
    (hb : b ≤ stop) (hblocks : Lists m blocks a b) (h : m.backingBlocksLoop stop fuel b blocks = some (.ok result)) :
    Lists m result a stop := by
  induction fuel generalizing b blocks with
  | zero => cases h
  | succ fuel ih =>
    unfold backingBlocksLoop at h
    split at h
    · rename_i heq
      cases h
      rw [← heq]
      exact hblocks
    · rename_i hne
      simp only [Option.bind_eq_bind] at h
      have hlt : b < maxAddress := by
        by_contra hcon
        rw [findVMA_none m (by omega)] at h
        cases h
      have ht := hm.tiled
      obtain ⟨pre, w, post, hw, h1, h2⟩ := ht.find (Nat.zero_le b) hlt
      simp only [findVMA_eq hm.tiled hw h1 h2, get?_area hm.tiled hw, Option.bind_some] at h
      split at h
      · cases h
      · rename_i htype
        have htype : w.type = .backingMemory := not_not.mp htype
        refine ih _ _ (by omega) (lists_append hblocks fun i hi => ?_) h
        rw [backing_area hm hw htype (by omega) (by omega)]
        congr 1
        omega

theorem Lists.le {a e : Nat} (h : Lists m blocks a e) : a ≤ e := by
  induction blocks generalizing a with
  | nil => exact Nat.le_of_eq h
  | cons p blocks ih => exact Nat.le_trans (Nat.le_add_right _ _) (ih h.2)

theorem Lists.size_le {a e : Nat} (h : Lists m blocks a e) {p : Nat × Nat} (hp : p ∈ blocks) : p.2 ≤ e := by
  induction blocks generalizing a with
  | nil => exact absurd hp (List.not_mem_nil)
  | cons q blocks ih =>
    rcases List.mem_cons.mp hp with rfl | hp
    · exact Nat.le_trans (Nat.le_add_left _ _) (Lists.le h.2)
    · exact ih h.2 hp

theorem Lists.mapped {a e x : Nat} (h : Lists m blocks a e) (hx : a ≤ x) (hx' : x < e) : m.backing x ≠ none := by
  induction blocks generalizing a with
  | nil =>
    have h : a = e := h
    omega
  | cons p blocks ih =>
    by_cases hlt : x < a + p.2
    · have := h.1 (x - a) (by omega)
      rw [show a + (x - a) = x by omega] at this
      rw [this]
      exact Option.some_ne_none _
    · exact ih h.2 (by omega)

theorem Lists.mem {a e : Nat} (h : Lists m blocks a e) {p : Nat × Nat} (hp : p ∈ blocks)
    {i : Nat} (hi : i < p.2) : ∃ x, a ≤ x ∧ x < e ∧ m.backing x = some (p.1 + i) := by
  induction blocks generalizing a with
  | nil => exact absurd hp (List.not_mem_nil)
  | cons q blocks ih =>
    have hle := Lists.le h.2
    rcases List.mem_cons.mp hp with rfl | hp
    · exact ⟨a + i, by omega, by omega, h.1 i hi⟩
    · obtain ⟨x, h1, h2, h3⟩ := ih h.2 hp
      exact ⟨x, by omega, h2, h3⟩

theorem getBackingBlocksForRange_lists (hm : m.Intact) {address size : Nat} (hlt : address + size < 2 ^ 32) (h : m.getBackingBlocksForRange address size = some (.ok blocks)) :
    Lists m blocks address (address + size) := by
  have hadd : addU32 address size = address + size := Nat.mod_eq_of_lt hlt
  unfold getBackingBlocksForRange at h
  rw [hadd] at h
  exact backingBlocksLoop_lists hm _ address address [] _ (by omega) rfl h

end VMManager

end SweepDSEmu
