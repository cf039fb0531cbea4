import SweepDSEmu.Kernel.VMManagerBacking

/-!
# When the calls of the address space succeed

`UnmapRange`, `ReprotectRange` and `ChangeMemoryState` look at the areas that meet their range.  As the areas tile the
address space this is a question about the pages of the range.
-/

namespace SweepDSEmu

open VirtualMemoryArea

namespace VMManager

def Mapped (m : VMManager) (t e : Nat) : Prop :=
  ∀ x, t ≤ x → x < e → ∀ a ∈ absAt m.vmaMap x, a.type ≠ .free

def InState (m : VMManager) (state : MemoryState) (perms : VMAPermission) (t e : Nat) : Prop :=
  ∀ x, t ≤ x → x < e → ∀ a ∈ absAt m.vmaMap x, a.meminfoState = state ∧ a.permissions &&& perms = perms

variable {m m' : VMManager} {t e target size : Nat}

theorem exists_attr (ht : m.Tiled) {x : Nat} (hx : x < maxAddress) : ∃ a, absAt m.vmaMap x = some a := by
  unfold Tiled at ht
  obtain ⟨pre, v, post, hm, hv, hv'⟩ := ht.find (Nat.zero_le x) hx
  rw [hm] at ht ⊢
  exact ⟨_, absAt_split_mem ht hv hv'⟩

theorem area_cases (ht : m.Tiled) {pre post : Areas} {v w : VirtualMemoryArea}
    (hm : m.vmaMap = pre ++ (v.base, v) :: post) (hw : (w.base, w) ∈ m.vmaMap) :
    w.stop ≤ v.base ∨ w = v ∨ v.stop ≤ w.base := by
  unfold Tiled at ht
  rw [hm] at ht hw
  obtain ⟨h1, -, -, h4⟩ := tiles_split.mp ht
  rcases List.mem_append.mp hw with h | h
  · exact Or.inl (h1.mem h).2.2.2
  · rcases List.mem_cons.mp h with h | h
    · exact Or.inr (Or.inl (congrArg Prod.snd h))
    · exact Or.inr (Or.inr (h4.mem h).2.2.1)

private theorem any_range_iff (ht : m.Tiled) {pre post : Areas} {v : VirtualMemoryArea}
    (hm : m.vmaMap = pre ++ (v.base, v) :: post) (hv : v.base ≤ t) (hv' : t < v.stop) (hte : t < e)
    (he : e ≤ maxAddress) {P : VirtualMemoryArea → Bool} {Q : PageAttr → Prop}
    (hPQ : ∀ v x, P v = true ↔ Q (v.attrAt x)) :
    ((m.vmaMap.range v.base (m.vmaMap.lowerBound e)).any fun p => P p.2) = true ↔
      ∃ x, t ≤ x ∧ x < e ∧ ∃ a ∈ absAt m.vmaMap x, Q a := by
  have ht' := ht
  unfold Tiled at ht'
  rw [List.any_eq_true]
  constructor
  · rintro ⟨p, hp, hP⟩
    obtain ⟨hmem, hle, hlt⟩ := (OrderedMap.mem_range_lowerBound ht'.sorted).mp hp
    obtain ⟨k, w⟩ := p
    obtain ⟨hk, hpos, -, -⟩ := ht'.mem hmem
    have hk : k = w.base := hk
    have hpos : 0 < w.size := hpos
    have hle : v.base ≤ k := hle
    have hlt : k < e := hlt
    subst hk
    -- the area reaches into the range
    have hreach : t < w.stop := by
      rcases area_cases ht hm hmem with h | rfl | h
      · unfold stop at *
        omega
      · exact hv'
      · unfold stop at *
        omega
    obtain ⟨pre', post', hsplit⟩ := List.append_of_mem hmem
    have hx : absAt m.vmaMap (max t w.base) = some (w.attrAt (max t w.base)) := by
      rw [hsplit] at ht' ⊢
      exact absAt_split_mem ht' (Nat.le_max_right _ _) (by unfold stop at *; omega)
    exact ⟨max t w.base, Nat.le_max_left _ _, by omega, _, hx, (hPQ w _).mp hP⟩
  · rintro ⟨x, hx, hx', a, ha, hQ⟩
    obtain ⟨pre', w, post', hm', hw, hw'⟩ := ht'.find (Nat.zero_le x) (by omega)
    have hmem : (w.base, w) ∈ m.vmaMap := by
      rw [hm']
      simp
    have hle : v.base ≤ w.base := by
      rcases area_cases ht hm hmem with h | rfl | h
      · omega
      · exact le_rfl
      · omega
    refine ⟨(w.base, w), (OrderedMap.mem_range_lowerBound ht'.sorted).mpr ⟨hmem, hle, by show w.base < e; omega⟩, ?_⟩
    rw [hm'] at ha ht'
    rw [absAt_split_mem ht' hw hw'] at ha
    rw [hPQ w x, Option.some_injective _ ha]
    exact hQ

private theorem carveVMARange_iff (ht : m.Tiled) (hr : RangeOk target size) {r : Except ResultCode VMAIter}
    (h : m.carveVMARange target size = some (r, m')) :
    (∃ k, r = .ok k) ↔ m.Mapped target (target + size) := by
  have hpos := hr.pos
  have hfits := hr.fits
  have ht' := ht
  obtain ⟨pre, v, post, hm, hv, hv'⟩ := ht'.find (Nat.zero_le target) (by omega)
  have hany := any_range_iff ht hm hv hv' (show target < target + size by omega) hfits
    (P := fun v => v.type = .free) (Q := fun a => a.type = .free) fun v x => decide_eq_true_iff
  rcases carveVMARange_eq ht hr with he | ⟨pre', mid, tail, -, hfree, he⟩
  · rw [h] at he
    cases he
    refine iff_of_false (by simp) ?_
    intro hmapped
    unfold carveVMARange at h
    simp only [guard, hr.addU32_eq, if_pos hr.alignedSize, if_pos hr.alignedTarget,
      if_pos (show target + size ≥ target by omega), if_pos hfits, if_pos (show size > 0 from hpos),
      findVMA_eq ht hm hv hv', Option.bind_eq_bind, Option.bind_some, pure] at h
    split at h
    · rename_i hc
      obtain ⟨x, hx, hx', a, ha, hfree⟩ := hany.mp hc
      exact hmapped x hx hx' a ha hfree
    · simp [Option.bind_eq_some_iff] at h
  · rw [h] at he
    cases he
    exact iff_of_true ⟨_, rfl⟩ hfree

private theorem carveVMARange_error (ht : m.Tiled) (hr : RangeOk target size) {e : ResultCode}
    (h : m.carveVMARange target size = some (.error e, m')) : e ≠ .success := by
  rcases carveVMARange_eq ht hr with he | ⟨_, _, _, -, -, he⟩
  · rw [h] at he
    cases he
    decide
  · rw [h] at he
    cases he

theorem unmapRange_success_iff (ht : m.Tiled) (hr : RangeOk target size) {r : ResultCode}
    (h : m.unmapRange target size = some (r, m')) : r = .success ↔ m.Mapped target (target + size) := by
  unfold unmapRange at h
  simp only [Option.bind_eq_bind, Option.bind_eq_some_iff, Option.guard_eq_some'] at h
  obtain ⟨-, -, ⟨res, m₁⟩, hcarve, h⟩ := h
  rw [← carveVMARange_iff ht hr hcarve]
  cases res with
  | error e =>
    cases h
    exact iff_of_false (carveVMARange_error ht hr hcarve) (by simp)
  | ok k =>
    simp only [Option.bind_eq_some_iff] at h
    obtain ⟨m₂, -, -, -, -, -, -, -, h⟩ := h
    cases h
    exact iff_of_true rfl ⟨k, rfl⟩

theorem reprotectRange_success_iff (ht : m.Tiled) (hr : RangeOk target size) {p : VMAPermission} {r : ResultCode}
    (h : m.reprotectRange target size p = some (r, m')) : r = .success ↔ m.Mapped target (target + size) := by
  unfold reprotectRange at h
  simp only [Option.bind_eq_bind, Option.bind_eq_some_iff, Option.guard_eq_some'] at h
  obtain ⟨-, -, ⟨res, m₁⟩, hcarve, h⟩ := h
  rw [← carveVMARange_iff ht hr hcarve]
  cases res with
  | error e =>
    cases h
    exact iff_of_false (carveVMARange_error ht hr hcarve) (by simp)
  | ok k =>
    obtain ⟨m₂, -, h⟩ := Option.bind_eq_some_iff.mp h
    cases h
    exact iff_of_true rfl ⟨k, rfl⟩

theorem changeMemoryState_success_iff (ht : m.Tiled) (hl : m.isLocked = false) (hr : RangeOk target size)
    {es ns : MemoryState} {ep np : VMAPermission} {r : ResultCode}
    (h : m.changeMemoryState target size es ep ns np = some (r, m')) :
    r = .success ↔ m.Mapped target (target + size) ∧ m.InState es ep target (target + size) := by
  have hpos := hr.pos
  have hfits := hr.fits
  have ht' := ht
  obtain ⟨pre, v, post, hm, hv, hv'⟩ := ht'.find (Nat.zero_le target) (by omega)
  have hany := any_range_iff ht hm hv hv' (show target < target + size by omega) hfits
    (P := unexpected es ep) (Q := fun a => ¬ (a.meminfoState = es ∧ a.permissions &&& ep = ep)) (by
      intro v x
      simp only [unexpected, Bool.or_eq_true, decide_eq_true_eq, attrAt]
      exact Decidable.not_and_iff_not_or_not.symm)
  unfold changeMemoryState at h
  simp only [hl, Bool.false_eq_true, if_false, findVMA_eq ht hm hv hv', hr.addU32_eq] at h
  split at h
  · rename_i hc
    cases h
    refine iff_of_false (by decide) ?_
    rintro ⟨-, hstate⟩
    obtain ⟨x, hx, hx', a, ha, hno⟩ := hany.mp hc
    exact hno (hstate x hx hx' a ha)
  · rename_i hc
    have hstate : m.InState es ep target (target + size) := by
      intro x hx hx' a ha
      by_contra hno
      exact hc (hany.mpr ⟨x, hx, hx', a, ha, hno⟩)
    rw [and_iff_left hstate]
    obtain ⟨⟨res, m₁⟩, hcarve, h⟩ := Option.bind_eq_some_iff.mp h
    rw [← carveVMARange_iff ht hr hcarve]
    cases res with
    | error e =>
      cases h
      exact iff_of_false (carveVMARange_error ht hr hcarve) (by simp)
    | ok k =>
      obtain ⟨m₂, -, h⟩ := Option.bind_eq_some_iff.mp h
      cases h
      exact iff_of_true rfl ⟨k, rfl⟩

theorem rangeOk_of_unmapRange (ht : target < 2 ^ 32) (hs : size < 2 ^ 32) {r : ResultCode × VMManager}
    (h : m.unmapRange target size = some r) : RangeOk target size := by
  unfold unmapRange at h
  simp only [Option.bind_eq_bind, Option.bind_eq_some_iff] at h
  obtain ⟨-, -, c, hcarve, -⟩ := h
  exact rangeOk_of_carve ht hs hcarve

theorem rangeOk_of_reprotectRange (ht : target < 2 ^ 32) (hs : size < 2 ^ 32) {p : VMAPermission}
    {r : ResultCode × VMManager} (h : m.reprotectRange target size p = some r) : RangeOk target size := by
  unfold reprotectRange at h
  simp only [Option.bind_eq_bind, Option.bind_eq_some_iff] at h
  obtain ⟨-, -, c, hcarve, -⟩ := h
  exact rangeOk_of_carve ht hs hcarve

theorem rangeOk_of_changeMemoryState (hl : m.isLocked = false) (ht : target < 2 ^ 32) (hs : size < 2 ^ 32)
    {es ns : MemoryState} {ep np : VMAPermission} (h : m.changeMemoryState target size es ep ns np = some (.success, m')) :
    RangeOk target size := by
  unfold changeMemoryState at h
  simp only [hl, Bool.false_eq_true, if_false] at h
  split at h
  · cases h
  · split at h
    · cases h
    · obtain ⟨c, hcarve, -⟩ := Option.bind_eq_some_iff.mp h
      exact rangeOk_of_carve ht hs hcarve

/-- The loop of `GetBackingBlocksForRange` from inside an area: it ends at a free area or at the end of the range. -/
private theorem backingBlocksLoop_returns (ht : m.Tiled) (he : e ≤ maxAddress) {fuel x : Nat}
    {pre post : Areas} {v : VirtualMemoryArea} {blocks : List (Nat × Nat)}
    (hm : m.vmaMap = pre ++ (v.base, v) :: post) (hx : v.base ≤ x) (hx' : x < v.stop) (hxe : x ≤ e)
    (hfuel : post.length + 2 ≤ fuel) :
    ∃ r, m.backingBlocksLoop e fuel x blocks = some r ∧
      ∀ c, r = .error c → c = .invalidAddressState ∧ ¬ m.Mapped x e := by
  induction fuel generalizing x pre v post blocks with
  | zero => omega
  | succ fuel ih =>
    unfold backingBlocksLoop
    by_cases hdone : x = e
    · rw [if_pos hdone]
      exact ⟨_, rfl, fun c hc => by cases hc⟩
    rw [if_neg hdone]
    simp only [Option.bind_eq_bind, findVMA_eq ht hm hx hx', get?_area ht hm, Option.bind_some]
    have ht' := ht
    unfold Tiled at ht'
    rw [hm] at ht'
    have habs : absAt m.vmaMap x = some (v.attrAt x) := by
      rw [hm]
      exact absAt_split_mem ht' hx hx'
    by_cases htype : v.type = .backingMemory
    swap
    · rw [if_pos htype]
      refine ⟨_, rfl, ?_⟩
      rintro c ⟨⟩
      refine ⟨rfl, fun hmapped => ?_⟩
      have hfree : v.type ≠ .free := hmapped x le_rfl (by omega) _ habs
      cases hv : v.type with
      | free => exact hfree hv
      | backingMemory => exact htype hv
    rw [if_neg (not_not.mpr htype)]
    -- the rest of the range starts where the area stops
    have hrest : ∀ c, ¬ m.Mapped (x + (min e v.stop - x)) e → c = ResultCode.invalidAddressState →
        c = .invalidAddressState ∧ ¬ m.Mapped x e := by
      intro c hno hc
      refine ⟨hc, fun hmapped => hno ?_⟩
      intro y hy hy'
      exact hmapped y (by omega) hy'
    by_cases hlast : e ≤ v.stop
    · have hnext : x + (min e v.stop - x) = e := by omega
      rw [hnext]
      cases fuel with
      | zero => omega
      | succ fuel =>
        unfold backingBlocksLoop
        rw [if_pos rfl]
        exact ⟨_, rfl, fun c hc => by cases hc⟩
    · have hnext : x + (min e v.stop - x) = v.stop := by omega
      obtain ⟨-, -, -, h4⟩ := tiles_split.mp ht'
      cases post with
      | nil =>
        have h4 : v.stop = maxAddress := h4
        omega
      | cons q post =>
        obtain ⟨k, w⟩ := q
        obtain ⟨hk, hw, hpos, -⟩ := h4
        have hm' : m.vmaMap = (pre ++ [(v.base, v)]) ++ (w.base, w) :: post := by
          rw [hm, hw, hk]
          simp
        have hlen : post.length + 2 ≤ fuel := by
          simp only [List.length_cons] at hfuel
          omega
        rw [hnext] at hrest ⊢
        obtain ⟨r, hr, herr⟩ := ih hm' (Nat.le_of_eq hw) (by unfold stop at *; omega) (by omega) hlen
        exact ⟨r, hr, fun c hc => hrest c (herr c hc).2 (herr c hc).1⟩

/-- `GetBackingBlocksForRange` returns, and it fails only when an address of the range is free. -/
theorem getBackingBlocksForRange_returns (ht : m.Tiled) (hpos : 0 < size) (hfits : target + size ≤ maxAddress) :
    ∃ r, m.getBackingBlocksForRange target size = some r ∧
      ∀ c, r = .error c → c = .invalidAddressState ∧ ¬ m.Mapped target (target + size) := by
  have hmax : maxAddress < 2 ^ 32 := by decide
  have hadd : addU32 target size = target + size := Nat.mod_eq_of_lt (by omega)
  have ht' := ht
  obtain ⟨pre, v, post, hm, hv, hv'⟩ := ht'.find (Nat.zero_le target) (by omega)
  unfold getBackingBlocksForRange
  rw [hadd]
  refine backingBlocksLoop_returns ht hfits hm hv hv' (by omega) ?_
  rw [hm]
  simp

end VMManager

end SweepDSEmu
