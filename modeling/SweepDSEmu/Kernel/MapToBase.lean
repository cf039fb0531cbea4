import SweepDSEmu.Kernel.VMManagerAligned

/-!
# Finding room for a mapping

`MapBackingMemoryToBase` looks for a free area by its end alone.  The first free area that ends high enough is the
only one it tries: when that area starts above the base and is too small, the mapping fails even if a later area has
room, and when there is no such area the iterator past the end is read.
-/

namespace SweepDSEmu

open VirtualMemoryArea

namespace VMManager

def Room (m : VMManager) (base regionSize size : Nat) : Prop :=
  ∃ a, base ≤ a ∧ a + size ≤ base + regionSize ∧
    ∃ p ∈ m.vmaMap, p.2.type = .free ∧ p.2.base ≤ a ∧ a + size ≤ p.2.stop

def candidate (m : VMManager) (base size : Nat) : Option VirtualMemoryArea :=
  (m.vmaMap.find? fun entry =>
    entry.2.type = .free ∧ entry.2.stop > base ∧ entry.2.stop ≥ addU32 base size).map Prod.snd

structure MapsAt (m : VMManager) (target memory size : Nat) (state : MemoryState) (m' : VMManager) : Prop where
  free : ∀ x, target ≤ x → x < target + size → ∃ a, absAt m.vmaMap x = some a ∧ a.type = .free
  mapped : ∀ x, target ≤ x → x < target + size →
    absAt m'.vmaMap x = some ⟨.backingMemory, VMAPermission.readWrite, state, memory + (x - target)⟩
  others : ∀ x, ¬ (target ≤ x ∧ x < target + size) → absAt m'.vmaMap x = absAt m.vmaMap x

/-- The call maps the memory in the region when there is room, else it fails and changes nothing. -/
def FindsRoom (m : VMManager) (base regionSize memory size : Nat) (state : MemoryState) : Prop :=
  ∃ r m', m.mapBackingMemoryToBase base regionSize memory size state = some (r, m') ∧
    (m.Room base regionSize size → ∃ target, r = .ok target ∧ base ≤ target ∧ target + size ≤ base + regionSize ∧
      m.MapsAt target memory size state m') ∧
    (¬ m.Room base regionSize size → ∃ e, r = .error e ∧ m' = m)

/-- The search finds a free area, and the range in this area is outside the region, or it is aligned and fits unless
nothing does. -/
def CandidateFits (m : VMManager) (base regionSize size : Nat) : Prop :=
  ∃ v, m.candidate base size = some v ∧ (base + regionSize < max base v.base + size ∨
    max base v.base % pageSize = 0 ∧ (max base v.base + size ≤ v.stop ∨ ¬ m.Room base regionSize size))

variable {m m' : VMManager} {base regionSize memory size : Nat} {state : MemoryState}

private theorem Room.target_le (ht : m.Tiled) (hlt : base + size < 2 ^ 32) {v : VirtualMemoryArea}
    (hv : m.candidate base size = some v) (hsize : 0 < size) (h : m.Room base regionSize size) :
    max base v.base + size ≤ base + regionSize := by
  obtain ⟨a, ha, hregion, p, hp, hfree, hpa, hstop⟩ := h
  obtain ⟨⟨k, v'⟩, hfind, hv'⟩ := Option.map_eq_some_iff.mp hv
  have hv' : v' = v := hv'
  subst hv'
  obtain ⟨-, pre, post, hm, hpre⟩ := List.find?_eq_some_iff_append.mp hfind
  have hadd : addU32 base size = base + size := Nat.mod_eq_of_lt hlt
  unfold Tiled at ht
  rw [hm] at hp ht
  obtain ⟨-, -, -, htail⟩ := tiles_split.mp ht
  have hle : v'.base ≤ a := by
    rcases List.mem_append.mp hp with hp | hp
    · -- an area with room ends high enough, so the search would have stopped there
      have hno := hpre p hp
      simp only [hadd, Bool.not_eq_eq_eq_not, Bool.not_true, decide_eq_false_iff_not] at hno
      exact absurd ⟨hfree, by omega, by omega⟩ hno
    · rcases List.mem_cons.mp hp with rfl | hp
      · exact hpa
      · obtain ⟨-, -, h3, -⟩ := htail.mem hp
        unfold stop at h3
        omega
  omega

section Tried

variable {pre post : Areas} {v : VirtualMemoryArea} {target : Nat}

private theorem mapBackingMemory_fits (state : MemoryState) (hm : m.Sound) (hmem : memory ≠ 0)
    (hs : size % pageSize = 0) (hpos : 0 < size) (hsplit : m.vmaMap = pre ++ (v.base, v) :: post)
    (hfree : v.type = .free) (ht : target % pageSize = 0) (hle : v.base ≤ target) (hfits : target + size ≤ v.stop) :
    ∃ k m', m.mapBackingMemory target memory size state = some (.ok k, m') ∧ m.MapsAt target memory size state m' := by
  have htiled := hm.tiled
  unfold Tiled at htiled
  rw [hsplit] at htiled
  have hstop : v.stop ≤ maxAddress := (tiles_split.mp htiled).2.2.2.le
  have hmax : maxAddress < 2 ^ 32 := by decide
  have hadd : addU32 (target - v.base) size = target - v.base + size := Nat.mod_eq_of_lt (by omega)
  have hend : ¬ addU32 (target - v.base) size > v.size := by
    unfold stop at hfits
    omega
  rcases mapBackingMemory_eq hm.tiled hm.unlocked state hmem ht hs (show size < 2 ^ 32 by omega) with
    ⟨e, -, h⟩ | ⟨-, h⟩ | ⟨pre', w, post', hc, ht', h⟩
  · -- `CarveVMA` does not fail
    unfold mapBackingMemory carveVMA at h
    simp only [Option.bind_eq_bind, Option.bind_eq_some_iff, Option.guard_eq_some', pure] at h
    obtain ⟨-, -, -, -, ⟨res, m₁⟩, hcarve, hres⟩ := h
    simp only [findVMA_eq hm.tiled hsplit hle (show target < v.stop by omega), get?_area hm.tiled hsplit, hfree,
      ne_eq, not_true_eq_false, if_false, if_neg hend, Option.bind_some, Option.bind_eq_some_iff] at hcarve
    obtain ⟨-, -, -, -, ⟨k, m₂⟩, -, ⟨k', m₃⟩, -, hcarve⟩ := hcarve
    cases hcarve
    simp [Option.bind_eq_some_iff] at hres
  · omega
  · have hexec : m.exec (.mapBackingMemory target memory size state) =
        some (.success, { m with vmaMap := mergedAreas pre' (VMManager.mapped memory state w) post' }) := by
      simp only [VMManager.exec, h, Option.map_some]
    have hop : Op.IsU32 (.mapBackingMemory target memory size state) := by
      constructor
      · show target < 2 ^ 32
        omega
      · show size < 2 ^ 32
        omega
    have hok := exec_ok hm.tiled hm.unlocked hop hexec
    -- every address of the range is in the free area
    have habs : ∀ x, target ≤ x → x < target + size → absAt m.vmaMap x = some (v.attrAt x) := by
      intro x hx hx'
      rw [hsplit]
      exact absAt_split_mem htiled (by omega) (by omega)
    refine ⟨_, _, h, ?_, ?_, ?_⟩
    · exact fun x hx hx' => ⟨_, habs x hx hx', hfree⟩
    · intro x hx hx'
      rw [hok.changes rfl x, if_pos ⟨hx, hx'⟩, habs x hx hx']
      rfl
    · intro x hx
      rw [hok.changes rfl x]
      exact if_neg hx

private theorem mapBackingMemory_small (state : MemoryState) (hm : m.Sound) (hmem : memory ≠ 0)
    (hs : size % pageSize = 0) (hsplit : m.vmaMap = pre ++ (v.base, v) :: post) (hfree : v.type = .free)
    (ht : target % pageSize = 0) (hle : v.base ≤ target) (hlt : target < v.stop) (hsmall : v.stop < target + size)
    (hwrap : target + size < 2 ^ 32) :
    m.mapBackingMemory target memory size state = some (.error .invalidAddressState, m) := by
  have hadd : addU32 (target - v.base) size = target - v.base + size := Nat.mod_eq_of_lt (by omega)
  have hend : addU32 (target - v.base) size > v.size := by
    unfold stop at hsmall
    omega
  unfold mapBackingMemory carveVMA
  simp only [guard, if_pos hm.unlocked, if_pos hmem, if_pos hs, if_pos ht, findVMA_eq hm.tiled hsplit hle hlt,
    get?_area hm.tiled hsplit, hfree, ne_eq, not_true_eq_false, if_false, if_pos hend, Option.bind_eq_bind,
    Option.bind_some, pure]

end Tried

private theorem mapBackingMemoryToBase_none (h : m.candidate base size = none) (regionSize memory : Nat)
    (state : MemoryState) :
    m.mapBackingMemoryToBase base regionSize memory size state = none := by
  have hfind := Option.map_eq_none_iff.mp h
  unfold mapBackingMemoryToBase
  simp only [hfind, Option.bind_eq_bind, Option.bind_none, guard]
  split <;> rfl

private theorem mapBackingMemoryToBase_some (hl : m.isLocked = false) {v : VirtualMemoryArea}
    (h : m.candidate base size = some v) (regionSize memory : Nat) (state : MemoryState) :
    m.mapBackingMemoryToBase base regionSize memory size state =
      if addU32 (max base v.base) size > addU32 base regionSize then some (.error .outOfMemory, m)
      else (m.mapBackingMemory (max base v.base) memory size state).map fun
        | (.error e, m) => (.error e, m)
        | (.ok _, m) => (.ok (max base v.base), m) := by
  obtain ⟨⟨k, v'⟩, hfind, hv⟩ := Option.map_eq_some_iff.mp h
  have hv : v' = v := hv
  subst hv
  unfold mapBackingMemoryToBase
  simp only [hfind, Option.bind_eq_bind, Option.bind_some, guard, if_pos hl, pure]
  split
  · rfl
  · cases m.mapBackingMemory (max base v'.base) memory size state with
    | none => rfl
    | some r =>
      obtain ⟨res, m₁⟩ := r
      cases res <;> rfl

/-- `MapBackingMemoryToBase` finds room whenever there is room, exactly when the area that it tries first has room or
no area has. -/
theorem mapBackingMemoryToBase_findsRoom_iff (hm : m.Reachable) (hmem : memory ≠ 0) (hs : size % pageSize = 0)
    (hpos : 0 < size) (hsize : base + size < 2 ^ 32) (hregion : base + regionSize < 2 ^ 32) :
    m.FindsRoom base regionSize memory size state ↔ m.CandidateFits base regionSize size := by
  have hsound := hm.sound
  cases hcand : m.candidate base size with
  | none =>
    have hnone := mapBackingMemoryToBase_none hcand regionSize memory state
    constructor
    · rintro ⟨r, m', h, -⟩
      rw [hnone] at h
      cases h
    · rintro ⟨v, hv, -⟩
      rw [hcand] at hv
      cases hv
  | some v =>
    obtain ⟨⟨k, v'⟩, hfind, hv⟩ := Option.map_eq_some_iff.mp hcand
    have hv : v' = v := hv
    subst hv
    obtain ⟨hcond, pre, post, hsplit, -⟩ := List.find?_eq_some_iff_append.mp hfind
    have hadd : addU32 base size = base + size := Nat.mod_eq_of_lt hsize
    have hadd' : addU32 base regionSize = base + regionSize := Nat.mod_eq_of_lt hregion
    rw [decide_eq_true_eq, hadd] at hcond
    obtain ⟨hfree, hbase, hend⟩ := hcond
    have hbase : base < v'.stop := hbase
    have hend : base + size ≤ v'.stop := hend
    have htiled := hsound.tiled
    unfold Tiled at htiled
    have hmemv : (k, v') ∈ m.vmaMap := by
      rw [hsplit]
      simp
    obtain ⟨hkey, hvpos, -, hstop⟩ := htiled.mem hmemv
    have hkey : k = v'.base := hkey
    have hstop : v'.stop ≤ maxAddress := hstop
    have hmax : maxAddress ≤ 2 ^ 30 := by decide
    subst hkey
    have hltv : v'.base < v'.stop := by
      have hvpos : 0 < v'.size := hvpos
      unfold stop
      omega
    have hwrap : max base v'.base + size < 2 ^ 32 := by omega
    have hadd'' : addU32 (max base v'.base) size = max base v'.base + size := Nat.mod_eq_of_lt hwrap
    have hcall := mapBackingMemoryToBase_some hsound.unlocked hcand regionSize memory state
    rw [hadd', hadd''] at hcall
    have hroom : m.Room base regionSize size → max base v'.base + size ≤ base + regionSize :=
      Room.target_le hsound.tiled hsize hcand hpos
    have honly : m.CandidateFits base regionSize size ↔ (base + regionSize < max base v'.base + size ∨
        max base v'.base % pageSize = 0 ∧
          (max base v'.base + size ≤ v'.stop ∨ ¬ m.Room base regionSize size)) := by
      unfold CandidateFits
      rw [hcand]
      simp
    rw [honly]
    by_cases hout : base + regionSize < max base v'.base + size
    · -- the range is outside the region
      rw [if_pos hout] at hcall
      refine iff_of_true ⟨_, _, hcall, ?_, ?_⟩ (Or.inl hout)
      · intro h
        have hle := hroom h
        omega
      · exact fun _ => ⟨_, rfl, rfl⟩
    rw [if_neg hout] at hcall
    by_cases haligned : max base v'.base % pageSize = 0
    swap
    · -- `CarveVMA` asserts that the range is aligned
      constructor
      · rintro ⟨r, m', h, -⟩
        rw [hcall] at h
        obtain ⟨c, hc, -⟩ := Option.map_eq_some_iff.mp h
        exact absurd (mapBackingMemory_guards hc).2.1 haligned
      · rintro (h | ⟨h, -⟩)
        · exact absurd h hout
        · exact absurd h haligned
    by_cases hfits : max base v'.base + size ≤ v'.stop
    · obtain ⟨k, m', hmap, hat⟩ := mapBackingMemory_fits state hsound hmem hs hpos hsplit hfree haligned
        (Nat.le_max_right _ _) hfits
      rw [hmap] at hcall
      refine iff_of_true ⟨_, _, hcall, ?_, ?_⟩ (Or.inr ⟨haligned, Or.inl hfits⟩)
      · exact fun _ => ⟨_, rfl, Nat.le_max_left _ _, Nat.not_lt.mp hout, hat⟩
      · intro hno
        exact absurd ⟨_, Nat.le_max_left _ _, Nat.not_lt.mp hout, (v'.base, v'), hmemv, hfree, Nat.le_max_right _ _,
          hfits⟩ hno
    · have hmap := mapBackingMemory_small state hsound hmem hs hsplit hfree haligned (Nat.le_max_right _ _)
        (show max base v'.base < v'.stop by omega) (Nat.not_le.mp hfits) hwrap
      rw [hmap] at hcall
      constructor
      · rintro ⟨r, m', h, hok, -⟩
        refine Or.inr ⟨haligned, Or.inr ?_⟩
        intro hr
        obtain ⟨target, hres, -⟩ := hok hr
        rw [hcall] at h
        cases h
        cases hres
      · rintro (h | ⟨-, h | h⟩)
        · exact absurd h hout
        · exact absurd h hfits
        · exact ⟨_, _, hcall, fun hr => absurd hr h, fun _ => ⟨_, rfl, rfl⟩⟩

/-- Two buffers of one page with their guard pages are mapped for IPC. -/
def ipcOps : List Op :=
  [.mapBackingMemory 0x4000000 0x100000 0x3000 .shared, .mapBackingMemory 0x4003000 0x200000 0x3000 .shared]

/-- The room after the buffers is found. -/
theorem ipcOps_findsRoom :
    ∃ m, reset.run ipcOps = some m ∧ m.FindsRoom 0x4000000 0x4000000 0x300000 0x4000 .shared := by
  refine ⟨_, rfl, (mapBackingMemoryToBase_findsRoom_iff (Reachable.reset.run ipcOps ?_ rfl) ?_ ?_ ?_ ?_
    ?_).mpr ⟨_, rfl, Or.inr ⟨?_, Or.inl ?_⟩⟩⟩ <;> decide

/-- A third buffer is mapped and the second one is unmapped. -/
def fragmentedOps : List Op :=
  ipcOps ++ [.mapBackingMemory 0x4006000 0x300000 0x3000 .shared, .unmapRange 0x4003000 0x3000]

/-- The hole that the second buffer has left is tried, and it is too small for two pages with their guard pages. -/
theorem fragmentedOps_misses_room :
    ∃ m, reset.run fragmentedOps = some m ∧ m.Reachable ∧ m.Room 0x4000000 0x4000000 0x4000 ∧
      m.mapBackingMemoryToBase 0x4000000 0x4000000 0x400000 0x4000 .shared = some (.error .invalidAddressState, m) ∧
      ¬ m.FindsRoom 0x4000000 0x4000000 0x400000 0x4000 .shared := by
  obtain ⟨m, hm⟩ : ∃ m, m = VMManager.mk
    [(0, { size := 0x4000000 }),
      (0x4000000, ⟨0x4000000, 0x3000, .backingMemory, 3, .shared, 0x100000⟩),
      (0x4003000, { base := 0x4003000, size := 0x3000 }),
      (0x4006000, ⟨0x4006000, 0x3000, .backingMemory, 3, .shared, 0x300000⟩),
      (0x4009000, { base := 0x4009000, size := 0x3BFF7000 })] false := ⟨_, rfl⟩
  have hrun : reset.run fragmentedOps = some m := by
    rw [hm]
    rfl
  have hroom : m.Room 0x4000000 0x4000000 0x4000 := by
    refine ⟨0x4009000, by decide, by decide, (0x4009000, { base := 0x4009000, size := 0x3BFF7000 }), ?_, rfl, ?_, ?_⟩
    · rw [hm]
      simp
    · decide
    · decide
  have hcall : m.mapBackingMemoryToBase 0x4000000 0x4000000 0x400000 0x4000 .shared =
      some (.error .invalidAddressState, m) := by
    rw [hm]
    rfl
  refine ⟨m, hrun, Reachable.reset.run fragmentedOps (by decide) hrun, hroom, hcall, ?_⟩
  rintro ⟨r, m', h, hok, -⟩
  obtain ⟨target, hr, -⟩ := hok hroom
  rw [hcall] at h
  cases h
  cases hr

end VMManager

end SweepDSEmu
