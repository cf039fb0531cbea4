import SweepDSEmu.Kernel.MapUnmap

/-!
# Unmap after Map

`Map` maps the memory of the source block by block and gives each block its permissions afterwards.  By then
`MapBackingMemory` may have merged the block with a neighbour that continues it, and `Reprotect` works on the merged
area: the neighbour gets the permissions too, and `Unmap` does not give them back.
-/

namespace SweepDSEmu

open VirtualMemoryArea

namespace VMManager

section Extent

variable {pre post : Areas} {v : VirtualMemoryArea}

private theorem merged_extent (h : Tiles 0 (pre ++ (v.base, v) :: post) maxAddress) :
    ((merged pre v post).2.1.base = v.base ∧ (∀ u ∈ pre.getLast?, ¬ u.2.Mergeable v) ∨
      (merged pre v post).2.1.base < v.base ∧ ∃ u ∈ pre.getLast?, u.2.Mergeable v) ∧
    ((merged pre v post).2.1.stop = v.stop ∧ (∀ n ∈ post.head?, ¬ v.Mergeable n.2) ∨
      v.stop < (merged pre v post).2.1.stop ∧ ∃ n ∈ post.head?, v.Mergeable n.2) ∧
    (merged pre v post).2.1.permissions = v.permissions ∧ (merged pre v post).2.1.type = v.type := by
  obtain ⟨h1, -, hpos, h4⟩ := tiles_split.mp h
  -- the right side first, as `MergeAdjacent` does
  have hnext : (joinNext v post).1.base = v.base ∧
      ((joinNext v post).1.permissions = v.permissions ∧ (joinNext v post).1.type = v.type) ∧
      (∀ u : VirtualMemoryArea, u.Mergeable (joinNext v post).1 ↔ u.Mergeable v) ∧
      ((joinNext v post).1.stop = v.stop ∧ (∀ n ∈ post.head?, ¬ v.Mergeable n.2) ∨
        v.stop < (joinNext v post).1.stop ∧ ∃ n ∈ post.head?, v.Mergeable n.2) := by
    rcases joinNext_cases v post with ⟨hj, hno⟩ | ⟨n, post', rfl, hmerge, hj⟩ <;> rw [hj]
    · exact ⟨rfl, ⟨rfl, rfl⟩, fun _ => Iff.rfl, Or.inl ⟨rfl, hno⟩⟩
    · refine ⟨rfl, ⟨rfl, rfl⟩, fun _ => Iff.rfl, Or.inr ⟨?_, n, rfl, hmerge⟩⟩
      have hn : 0 < n.2.size := (h4.mem List.mem_cons_self).2.1
      show v.base + v.size < v.base + (v.size + n.2.size)
      omega
  obtain ⟨hbase, hattrs, hmergeable, hstop⟩ := hnext
  have hmerged : (merged pre v post).2.1 = (joinPrev pre (joinNext v post).1).2 := rfl
  rw [hmerged]
  rcases joinPrev_cases pre (joinNext v post).1 with ⟨hj, hno⟩ | ⟨⟨k, u⟩, pre', rfl, hmerge, hj⟩ <;> rw [hj]
  · exact ⟨Or.inl ⟨hbase, fun u hu => (hmergeable u.2).not.mp (hno u hu)⟩, hstop, hattrs⟩
  · obtain ⟨-, -, hupos, hustop⟩ := tiles_split.mp h1
    have hustop : u.stop = v.base := hustop
    have hjoin : (u.join (joinNext v post).1).stop = (joinNext v post).1.stop :=
      join_stop u _ (hustop.trans hbase.symm)
    refine ⟨Or.inr ⟨?_, (k, u), by simp, (hmergeable u).mp hmerge⟩, ?_, hmerge.1.trans hattrs.1,
      hmerge.2.2.1.trans hattrs.2⟩
    · show u.base < v.base
      unfold stop at hustop
      omega
    · show (u.join (joinNext v post).1).stop = v.stop ∧ _ ∨ v.stop < (u.join (joinNext v post).1).stop ∧ _
      rw [hjoin]
      exact hstop

end Extent

/-- The address is mapped as `MapBackingMemory` maps it, to the host pointer `memory`. -/
def Continues (m : VMManager) (x memory : Nat) (state : MemoryState) : Prop :=
  absAt m.vmaMap x = some ⟨.backingMemory, VMAPermission.readWrite, state, memory⟩

def JoinsBefore (m : VMManager) (target memory : Nat) (state : MemoryState) : Prop :=
  0 < target ∧ 0 < memory ∧ m.Continues (target - 1) (memory - 1) state

def JoinsAfter (m : VMManager) (target memory size : Nat) (state : MemoryState) : Prop :=
  m.Continues (target + size) (memory + size) state

variable {m m' : VMManager} {target memory size : Nat} {state : MemoryState} {perms : VMAPermission}

private theorem joinsBefore_iff {pre post : Areas} {w : VirtualMemoryArea} (hmem : memory ≠ 0)
    (hc : CarvedFree m.vmaMap target size pre w post) :
    (∃ u ∈ pre.getLast?, u.2.Mergeable (mapped memory state w)) ↔ m.JoinsBefore target memory state := by
  obtain ⟨h1, -, -, -⟩ := tiles_split.mp hc.tiles
  rw [hc.base_eq] at h1
  unfold JoinsBefore Continues
  rw [← hc.abs (target - 1)]
  rcases List.eq_nil_or_concat pre with rfl | ⟨pre', ⟨k, u⟩, rfl⟩
  · -- the target starts at the address zero
    have htarget : 0 = target := h1
    refine iff_of_false ?_ (by omega)
    rintro ⟨u, hu, -⟩
    cases hu
  · have htiles := hc.tiles
    rw [List.concat_eq_append] at h1 htiles ⊢
    obtain ⟨-, -, hpos, hstop⟩ := tiles_split.mp h1
    have hstop : u.base + u.size = target := hstop
    have happ : pre' ++ [(k, u)] ++ (w.base, w) :: post = pre' ++ (k, u) :: (w.base, w) :: post := by simp
    have habs : absAt (pre' ++ [(k, u)] ++ (w.base, w) :: post) (target - 1) = some (u.attrAt (target - 1)) := by
      rw [happ]
      exact absAt_split_mem (happ ▸ htiles) (by omega) (by unfold stop; omega)
    rw [habs]
    constructor
    · rintro ⟨u', hu', hperms, hstate, htype, hback⟩
      have hu' : (k, u) = u' := by simpa using hu'
      subst hu'
      have hperms : u.permissions = VMAPermission.readWrite := hperms
      have hstate : u.meminfoState = state := hstate
      have htype : u.type = .backingMemory := htype
      have hback : u.backingMemory + u.size = memory := hback htype
      refine ⟨by omega, by omega, ?_⟩
      unfold attrAt
      simp only [hperms, hstate, htype, Option.some.injEq, PageAttr.mk.injEq, true_and]
      omega
    · rintro ⟨-, -, ha⟩
      refine ⟨(k, u), by simp, ?_⟩
      obtain ⟨htype, hperms, hstate, hback⟩ := PageAttr.mk.inj (Option.some_injective _ ha)
      simp only [htype] at hback
      refine ⟨hperms, hstate, htype, fun _ => ?_⟩
      show u.backingMemory + u.size = memory
      omega

private theorem joinsAfter_iff {pre post : Areas} {w : VirtualMemoryArea}
    (hc : CarvedFree m.vmaMap target size pre w post) :
    (∃ n ∈ post.head?, (mapped memory state w).Mergeable n.2) ↔ m.JoinsAfter target memory size state := by
  obtain ⟨h1, -, -, h4⟩ := tiles_split.mp hc.tiles
  have hstop : w.stop = target + size := by
    unfold stop
    rw [hc.base_eq, hc.size_eq]
  unfold JoinsAfter Continues
  rw [← hc.abs (target + size)]
  cases post with
  | nil =>
    -- the target ends at the end of the address space
    refine iff_of_false (by simp) ?_
    intro ha
    have hend : w.stop = maxAddress := h4
    rw [hc.tiles.absAt_outside (Or.inr (by omega))] at ha
    cases ha
  | cons n post =>
    obtain ⟨k, n⟩ := n
    obtain ⟨hk, hn, hpos, -⟩ := h4
    have happ : pre ++ (w.base, w) :: (k, n) :: post = (pre ++ [(w.base, w)]) ++ (k, n) :: post := by simp
    have habs : absAt (pre ++ (w.base, w) :: (k, n) :: post) (target + size) = some (n.attrAt (target + size)) := by
      rw [happ]
      exact absAt_split_mem (happ ▸ hc.tiles) (by omega) (by unfold stop at *; omega)
    rw [habs]
    have hzero : target + size - n.base = 0 := by omega
    have hmsize : (mapped memory state w).backingMemory + (mapped memory state w).size = memory + size := by
      show memory + w.size = memory + size
      rw [hc.size_eq]
    constructor
    · rintro ⟨n', hn', hperms, hstate, htype, hback⟩
      cases hn'
      have hback := hback rfl
      rw [hmsize] at hback
      have hperms : VMAPermission.readWrite = n.permissions := hperms
      have hstate : state = n.meminfoState := hstate
      have htype : VMAType.backingMemory = n.type := htype
      unfold attrAt
      simp only [← hperms, ← hstate, ← htype, hzero, hback, Nat.add_zero]
    · intro ha
      refine ⟨(k, n), rfl, ?_⟩
      obtain ⟨htype, hperms, hstate, hback⟩ := PageAttr.mk.inj (Option.some_injective _ ha)
      simp only [htype] at hback
      refine ⟨hperms.symm, hstate.symm, htype.symm, fun _ => ?_⟩
      rw [hmsize]
      show memory + size = n.backingMemory
      omega

/-- What mapping a block does: the block gets the permissions, and with it whatever it has been merged with. -/
structure MapsBlock (m : VMManager) (target memory size : Nat) (state : MemoryState) (perms : VMAPermission)
    (lo hi : Nat) (m' : VMManager) : Prop where
  sound : m'.Sound
  aligned : target % pageSize = 0
  lo_le : lo ≤ target
  le_hi : target + size ≤ hi
  lo_lt : lo < target ↔ m.JoinsBefore target memory state
  lt_hi : target + size < hi ↔ m.JoinsAfter target memory size state
  free : ∀ x, target ≤ x → x < target + size → ∃ a, absAt m.vmaMap x = some a ∧ a.type = .free
  block : ∀ x, target ≤ x → x < target + size →
    absAt m'.vmaMap x = some ⟨.backingMemory, perms, state, memory + (x - target)⟩
  joined : ∀ x, lo ≤ x → x < hi → ¬ (target ≤ x ∧ x < target + size) →
    ∃ a, absAt m.vmaMap x = some a ∧ a.permissions = VMAPermission.readWrite ∧
      absAt m'.vmaMap x = some { a with permissions := perms }
  others : ∀ x, ¬ (lo ≤ x ∧ x < hi) → absAt m'.vmaMap x = absAt m.vmaMap x

private theorem absAt_reprotected {pre post : Areas} {v : VirtualMemoryArea}
    (ht : Tiles 0 (pre ++ (v.base, v) :: post) maxAddress) (x : Nat) :
    absAt (mergedAreas pre (reprotected perms v) post) x =
      if v.base ≤ x ∧ x < v.stop then some { v.attrAt x with permissions := perms }
      else absAt (pre ++ (v.base, v) :: post) x := by
  obtain ⟨h1, -, h3, h4⟩ := tiles_split.mp ht
  have ht' : Tiles 0 (pre ++ ((reprotected perms v).base, reprotected perms v) :: post) maxAddress :=
    tiles_split.mpr ⟨h1, rfl, h3, h4⟩
  rw [(mergedAreas_tiles ht').2 x]
  by_cases hx : v.base ≤ x ∧ x < v.stop
  · rw [if_pos hx, absAt_split_mem ht' hx.1 hx.2]
    rfl
  · rw [if_neg hx, absAt_append, absAt_append, absAt_cons, absAt_cons, if_neg hx]
    congr 1
    exact if_neg hx

theorem mapBlock_maps (hm : m.Sound) (ht : target < 2 ^ 32) (hs : size < 2 ^ 32)
    (h : m.mapBlock target memory size state perms = .ok m') :
    0 < size ∧ target + size ≤ maxAddress ∧ ∃ lo hi, m.MapsBlock target memory size state perms lo hi m' := by
  obtain ⟨⟨r, m₁⟩, hmap, h⟩ := ok_of_bind h
  rw [unwrap_eq_ok] at hmap
  cases r with
  | error e => cases h
  | ok k =>
    obtain ⟨⟨k', m₂⟩, hrep, h⟩ := ok_of_bind h
    cases h
    rw [unwrap_eq_ok] at hrep
    obtain ⟨hmem, hb, hz⟩ := mapBackingMemory_guards hmap
    have hm₁ := hm.mapBackingMemory ht hs hmap
    rcases mapBackingMemory_eq hm.tiled hm.unlocked state hmem hb hz hs with
      ⟨e, -, heq⟩ | ⟨heq, -⟩ | ⟨pre, w, post, hc, ht', heq⟩
    · rw [hmap] at heq
      cases heq
    · rw [hmap] at heq
      cases heq
    rw [hmap] at heq
    cases heq
    obtain ⟨hleft, hright, hperms, htype⟩ := merged_extent ht'
    obtain ⟨htm, habs⟩ := mergedAreas_tiles ht'
    obtain ⟨-, -, hwpos, htail⟩ := tiles_split.mp hc.tiles
    have hbase : (mapped memory state w).base = target := hc.base_eq
    have hwsize := hc.size_eq
    have hwstop : w.stop = target + size := by
      unfold stop
      rw [hc.base_eq, hwsize]
    have hstop : (mapped memory state w).stop = target + size := hwstop
    rw [hbase] at hleft
    rw [hstop] at hright
    -- the merged area, with the areas around it
    obtain ⟨v, hv⟩ : ∃ v, v = (merged pre (mapped memory state w) post).2.1 := ⟨_, rfl⟩
    rw [← hv] at hleft hright hperms htype hrep
    have hsplit : mergedAreas pre (mapped memory state w) post = (merged pre (mapped memory state w) post).1 ++
        (v.base, v) :: (merged pre (mapped memory state w) post).2.2 := by
      rw [hv]
      rfl
    rw [hsplit] at htm habs
    have hget : OrderedMap.get? (mergedAreas pre (mapped memory state w) post) v.base = some v := by
      rw [hsplit]
      exact OrderedMap.get?_split htm.sorted
    have hsound := hm₁.reprotect ⟨v, hget, htype⟩ hrep
    have hupdate : m'.vmaMap = mergedAreas (merged pre (mapped memory state w) post).1 (reprotected perms v)
        (merged pre (mapped memory state w) post).2.2 := by
      obtain ⟨-, heq⟩ := updateVMA_eq (f := reprotected perms) hm₁.tiled hsplit rfl rfl
      unfold reprotect at hrep
      simp only [Option.bind_eq_bind, Option.bind_eq_some_iff, Option.guard_eq_some'] at hrep
      obtain ⟨-, -, hrep⟩ := hrep
      rw [heq] at hrep
      cases hrep
      rfl
    have habs' : ∀ x, absAt m'.vmaMap x = if v.base ≤ x ∧ x < v.stop then some { v.attrAt x with permissions := perms }
        else absAt (pre ++ ((mapped memory state w).base, mapped memory state w) :: post) x := by
      intro x
      rw [hupdate, absAt_reprotected htm x, habs x]
    have hin : ∀ x, v.base ≤ x → x < v.stop →
        absAt (pre ++ ((mapped memory state w).base, mapped memory state w) :: post) x = some (v.attrAt x) := by
      intro x hx hx'
      rw [← habs x]
      exact absAt_split_mem htm hx hx'
    -- outside of the block nothing has been mapped
    have hout : ∀ x, ¬ (target ≤ x ∧ x < target + size) →
        absAt (pre ++ ((mapped memory state w).base, mapped memory state w) :: post) x = absAt m.vmaMap x := by
      intro x hx
      rw [← hc.abs x, absAt_append, absAt_append, absAt_cons, absAt_cons, hbase, hstop, if_neg hx, hc.base_eq, hwstop,
        if_neg hx]
    have hlo : v.base ≤ target := by
      rcases hleft with ⟨h, -⟩ | ⟨h, -⟩ <;> omega
    have hhi : target + size ≤ v.stop := by
      rcases hright with ⟨h, -⟩ | ⟨h, -⟩ <;> omega
    have hle := htail.le
    refine ⟨by omega, by omega, v.base, v.stop, hsound, hb, hlo, hhi, ?_, ?_, ?_, ?_, ?_, ?_⟩
    · rw [← joinsBefore_iff hmem hc]
      rcases hleft with ⟨h, hno⟩ | ⟨h, hyes⟩
      · refine iff_of_false (by omega) ?_
        rintro ⟨u, hu, hmerge⟩
        exact hno u hu hmerge
      · exact iff_of_true h hyes
    · rw [← joinsAfter_iff hc]
      rcases hright with ⟨h, hno⟩ | ⟨h, hyes⟩
      · refine iff_of_false (by omega) ?_
        rintro ⟨n, hn, hmerge⟩
        exact hno n hn hmerge
      · exact iff_of_true h hyes
    · intro x hx hx'
      refine ⟨w.attrAt x, ?_, hc.free⟩
      rw [← hc.abs x]
      exact absAt_split_mem hc.tiles (by rw [hc.base_eq]; exact hx) (by omega)
    · intro x hx hx'
      have hattr := hin x (by omega) (by omega)
      rw [absAt_split_mem ht' (by omega) (by omega)] at hattr
      rw [habs' x, if_pos ⟨by omega, by omega⟩, ← Option.some_injective _ hattr]
      show some (PageAttr.mk .backingMemory perms state (memory + (x - w.base))) = _
      rw [hc.base_eq]
    · intro x hx hx' hno
      refine ⟨v.attrAt x, ?_, hperms, ?_⟩
      · rw [← hout x hno]
        exact hin x hx hx'
      · rw [habs' x, if_pos ⟨hx, hx'⟩]
    · intro x hx
      rw [habs' x, if_neg hx, hout x fun hx' => hx ⟨by omega, by omega⟩]

def blocksSize (blocks : List (Nat × Nat)) : Nat := (blocks.map Prod.snd).sum

def blocksEnd : List (Nat × Nat) → Nat
  | [] => 0
  | [(memory, size)] => memory + size
  | _ :: blocks => blocksEnd blocks

/-- What mapping a list of blocks does.  The permissions of a neighbour change only from those that `MapBackingMemory`
gives, and they do when the neighbour continues the blocks. -/
structure MapsBlocks (m : VMManager) (target size memory memoryEnd : Nat) (state : MemoryState) (perms : VMAPermission)
    (m' : VMManager) : Prop where
  sound : m'.Sound
  aligned : target % pageSize = 0
  pos : 0 < size
  fits : target + size ≤ maxAddress
  free : ∀ x, target ≤ x → x < target + size → ∃ a, absAt m.vmaMap x = some a ∧ a.type = .free
  block : ∀ x, target ≤ x → x < target + size →
    ∃ a, absAt m'.vmaMap x = some a ∧ a.type = .backingMemory ∧ a.permissions = perms
  others : ∀ x, ¬ (target ≤ x ∧ x < target + size) → absAt m'.vmaMap x = absAt m.vmaMap x ∨
    ∃ a, absAt m.vmaMap x = some a ∧ a.permissions = VMAPermission.readWrite ∧
      absAt m'.vmaMap x = some { a with permissions := perms }
  exactly : ¬ m.JoinsBefore target memory state → ¬ m.Continues (target + size) memoryEnd state →
    ∀ x, ¬ (target ≤ x ∧ x < target + size) → absAt m'.vmaMap x = absAt m.vmaMap x
  before : m.JoinsBefore target memory state → ∃ a, absAt m'.vmaMap (target - 1) = some a ∧ a.permissions = perms
  after : m.Continues (target + size) memoryEnd state →
    ∃ a, absAt m'.vmaMap (target + size) = some a ∧ a.permissions = perms

private theorem MapsBlock.mapsBlocks {lo hi : Nat} (h : m.MapsBlock target memory size state perms lo hi m')
    (hpos : 0 < size) (hfits : target + size ≤ maxAddress) :
    m.MapsBlocks target size memory (memory + size) state perms m' where
  sound := h.sound
  aligned := h.aligned
  pos := hpos
  fits := hfits
  free := h.free
  block x hx hx' := ⟨_, h.block x hx hx', rfl, rfl⟩
  others x hx := by
    by_cases hin : lo ≤ x ∧ x < hi
    · obtain ⟨a, ha, hperms, ha'⟩ := h.joined x hin.1 hin.2 hx
      exact Or.inr ⟨a, ha, hperms, ha'⟩
    · exact Or.inl (h.others x hin)
  exactly hbefore hafter x hx := by
    have hlo := h.lo_lt.not.mpr hbefore
    have hhi := h.lt_hi.not.mpr hafter
    exact h.others x (by omega)
  before hbefore := by
    have hlo := h.lo_lt.mpr hbefore
    have hhi := h.le_hi
    obtain ⟨a, -, -, ha⟩ := h.joined (target - 1) (by omega) (by omega) (by omega)
    exact ⟨_, ha, rfl⟩
  after hafter := by
    have hlo := h.lo_le
    have hhi := h.lt_hi.mpr hafter
    obtain ⟨a, -, -, ha⟩ := h.joined (target + size) (by omega) (by omega) (by omega)
    exact ⟨_, ha, rfl⟩

private theorem MapsBlock.trans {lo hi rest memory' memoryEnd : Nat} {m₁ : VMManager}
    (h : m.MapsBlock target memory size state perms lo hi m₁) (hpos : 0 < size)
    (h' : m₁.MapsBlocks (target + size) rest memory' memoryEnd state perms m') :
    m.MapsBlocks target (size + rest) memory memoryEnd state perms m' := by
  have hrest := h'.pos
  have hlo := h.lo_le
  -- the address after the block is free, so the block is not merged with it
  have hhi : hi = target + size := by
    by_contra hne
    have hle := h.le_hi
    have hlt : target + size < hi := by omega
    obtain ⟨a, ha, hfree⟩ := h'.free (target + size) le_rfl (by omega)
    obtain ⟨b, hb, -, hb'⟩ := h.joined (target + size) (by omega) hlt (by omega)
    rw [hb'] at ha
    cases ha
    rw [h.lt_hi.mp hlt] at hb
    cases hb
    cases hfree
  have hsame : ∀ x, target + size ≤ x → absAt m₁.vmaMap x = absAt m.vmaMap x := by
    intro x hx
    exact h.others x (by omega)
  have hothers : ∀ x, ¬ (target ≤ x ∧ x < target + (size + rest)) → absAt m'.vmaMap x = absAt m.vmaMap x ∨
      ∃ a, absAt m.vmaMap x = some a ∧ a.permissions = VMAPermission.readWrite ∧
        absAt m'.vmaMap x = some { a with permissions := perms } := by
    intro x hx
    by_cases hin : lo ≤ x ∧ x < hi
    · obtain ⟨a, ha, hrw, ha₁⟩ := h.joined x hin.1 hin.2 (by omega)
      refine Or.inr ⟨a, ha, hrw, ?_⟩
      rcases h'.others x (by omega) with heq | ⟨b, hb, -, hb'⟩
      · rw [heq, ha₁]
      · rw [ha₁] at hb
        cases hb
        exact hb'
    · rw [← h.others x hin]
      exact h'.others x (by omega)
  refine ⟨h'.sound, h.aligned, by omega, by have := h'.fits; omega, ?_, ?_, hothers, ?_, ?_, ?_⟩
  · intro x hx hx'
    by_cases hlt : x < target + size
    · exact h.free x hx hlt
    · rw [← hsame x (by omega)]
      exact h'.free x (by omega) (by omega)
  · intro x hx hx'
    by_cases hlt : x < target + size
    · rcases h'.others x (by omega) with heq | ⟨a, ha, -, ha'⟩
      · rw [heq, h.block x hx hlt]
        exact ⟨_, rfl, rfl, rfl⟩
      · rw [h.block x hx hlt] at ha
        cases ha
        exact ⟨_, ha', rfl, rfl⟩
    · exact h'.block x (by omega) (by omega)
  · intro hbefore hafter x hx
    by_cases hrw : perms = VMAPermission.readWrite
    · rcases hothers x hx with heq | ⟨a, ha, harw, ha'⟩
      · exact heq
      · rw [ha', ha, hrw, ← harw]
    · -- the first block has other permissions than the next one is mapped with
      have hlo' := h.lo_lt.not.mpr hbefore
      rw [h'.exactly ?_ ?_ x (by omega), h.others x (by omega)]
      · rintro ⟨-, -, hcon⟩
        unfold Continues at hcon
        rw [h.block (target + size - 1) (by omega) (by omega)] at hcon
        exact hrw (congrArg PageAttr.permissions (Option.some_injective _ hcon))
      · unfold Continues at hafter ⊢
        rw [hsame _ (by omega), Nat.add_assoc]
        exact hafter
  · intro hbefore
    have hlt := h.lo_lt.mpr hbefore
    obtain ⟨a, -, -, ha⟩ := h.joined (target - 1) (by omega) (by omega) (by omega)
    rcases h'.others (target - 1) (by omega) with heq | ⟨b, -, -, hb⟩
    · rw [heq, ha]
      exact ⟨_, rfl, rfl⟩
    · exact ⟨_, hb, rfl⟩
  · intro hafter
    have hafter' : m₁.Continues (target + size + rest) memoryEnd state := by
      unfold Continues at hafter ⊢
      rw [hsame _ (by omega), Nat.add_assoc]
      exact hafter
    rw [← Nat.add_assoc]
    exact h'.after hafter'

theorem mapBlocks_maps (hm : m.Sound) (blocks : List (Nat × Nat)) (hne : blocks ≠ []) (ht : target < 2 ^ 32)
    (hs : ∀ b ∈ blocks, b.2 < 2 ^ 32) (h : mapBlocks state perms blocks target m = .ok m') :
    m.MapsBlocks target (blocksSize blocks) (blocks.head hne).1 (blocksEnd blocks) state perms m' := by
  induction blocks generalizing m target with
  | nil => exact absurd rfl hne
  | cons b blocks ih =>
    obtain ⟨memory, size⟩ := b
    have hsize : size < 2 ^ 32 := hs _ List.mem_cons_self
    obtain ⟨m₁, h₁, h⟩ := ok_of_bind h
    obtain ⟨hpos, hfits, lo, hi, hblock⟩ := mapBlock_maps hm ht hsize h₁
    have hmax : maxAddress < 2 ^ 32 := by decide
    have hadd : addU32 target size = target + size := addU32_of_lt (by omega)
    cases blocks with
    | nil =>
      cases h
      have hsum : blocksSize [(memory, size)] = size := by simp [blocksSize]
      exact hblock.mapsBlocks hpos hfits
    | cons b' blocks =>
      rw [hadd] at h
      have hsum : blocksSize ((memory, size) :: b' :: blocks) = size + blocksSize (b' :: blocks) := by
        simp [blocksSize]
      exact hblock.trans hpos (ih hblock.sound (List.cons_ne_nil _ _) (by omega)
        (fun b hb => hs b (List.mem_cons_of_mem _ hb)) h)

private theorem blocks_pos (hm : m.Sound) (blocks : List (Nat × Nat)) (ht : target < 2 ^ 32)
    (hs : ∀ b ∈ blocks, b.2 < 2 ^ 32) (h : mapBlocks state perms blocks target m = .ok m') :
    ∀ b ∈ blocks, 0 < b.2 := by
  induction blocks generalizing m target with
  | nil => exact fun b hb => absurd hb List.not_mem_nil
  | cons b blocks ih =>
    obtain ⟨memory, size⟩ := b
    obtain ⟨m₁, h₁, h⟩ := ok_of_bind h
    obtain ⟨hpos, -, lo, hi, hblock⟩ := mapBlock_maps hm ht (hs _ List.mem_cons_self) h₁
    intro b hb
    rcases List.mem_cons.mp hb with rfl | hb
    · exact hpos
    · exact ih hblock.sound (addU32_lt _ _) (fun b hb => hs b (List.mem_cons_of_mem _ hb)) h b hb

theorem Lists.size_eq {blocks : List (Nat × Nat)} {a e : Nat} (h : Lists m blocks a e) :
    a + blocksSize blocks = e := by
  induction blocks generalizing a with
  | nil => exact h
  | cons b blocks ih =>
    have hrest := ih h.2
    simp only [blocksSize, List.map_cons, List.sum_cons] at hrest ⊢
    omega

private theorem Lists.first {blocks : List (Nat × Nat)} {a e : Nat} (h : Lists m blocks a e) (hne : blocks ≠ [])
    (hpos : ∀ b ∈ blocks, 0 < b.2) : m.backing a = some (blocks.head hne).1 := by
  cases blocks with
  | nil => exact absurd rfl hne
  | cons b blocks => exact h.1 0 (hpos b List.mem_cons_self)

private theorem Lists.last {blocks : List (Nat × Nat)} {a e : Nat} (h : Lists m blocks a e) (hne : blocks ≠ [])
    (hpos : ∀ b ∈ blocks, 0 < b.2) :
    0 < blocksEnd blocks ∧ m.backing (e - 1) = some (blocksEnd blocks - 1) := by
  induction blocks generalizing a with
  | nil => exact absurd rfl hne
  | cons b blocks ih =>
    obtain ⟨memory, size⟩ := b
    have hsize : 0 < size := hpos _ List.mem_cons_self
    cases blocks with
    | nil =>
      have hend : a + size = e := h.2
      have hback : m.backing (a + (size - 1)) = some (memory + (size - 1)) := h.1 (size - 1) (by show size - 1 < size; omega)
      refine ⟨by show 0 < memory + size; omega, ?_⟩
      show m.backing (e - 1) = some (memory + size - 1)
      rw [show e - 1 = a + (size - 1) by omega, hback]
      congr 1
      omega
    | cons b' blocks => exact ih h.2 (List.cons_ne_nil _ _) fun b hb => hpos b (List.mem_cons_of_mem _ hb)

theorem permissions_page (hm : m.Sound) {x : Nat} {a : PageAttr} (ha : absAt m.vmaMap x = some a) :
    ∃ b, absAt m.vmaMap (x / pageSize * pageSize) = some b ∧ b.permissions = a.permissions := by
  have htiled := hm.tiled
  unfold Tiled at htiled
  have hlt : x < maxAddress := by
    by_contra hcon
    rw [htiled.absAt_outside (Or.inr (by omega))] at ha
    cases ha
  obtain ⟨pre, v, post, hsplit, hv, hv'⟩ := htiled.find (Nat.zero_le x) hlt
  have haligned : v.base % pageSize = 0 := (hm.aligned (v.base, v) (by rw [hsplit]; simp)).2
  rw [hsplit] at ha htiled ⊢
  rw [absAt_split_mem htiled hv hv'] at ha
  cases ha
  refine ⟨v.attrAt (x / pageSize * pageSize), absAt_split_mem htiled ?_ ?_, rfl⟩
  · unfold pageSize at *
    omega
  · unfold pageSize at *
    omega

end VMManager

namespace ProcessMemory

def targetState (privileged : Bool) : MemoryState := if privileged then .aliasCode else .aliasMemory

private theorem targetState_ne_private (privileged : Bool) : targetState privileged ≠ .privateMemory := by
  cases privileged <;> decide

private theorem sourceState_ne_targetState (privileged : Bool) : sourceState privileged ≠ targetState privileged := by
  cases privileged <;> decide

/-- The permissions that `Map` leaves the source. -/
def sourcePerm (privileged : Bool) : VMAPermission :=
  if privileged then VMAPermission.none else VMAPermission.readWrite

variable {s s₁ : ProcessMemory} {target source size : Nat} {perms : VMAPermission} {privileged : Bool}

/-- The steps of a successful `Map`. -/
private structure MapSteps (s : ProcessMemory) (target source size : Nat) (perms : VMAPermission) (privileged : Bool)
    (m₁ m₂ : VMManager) (memory memoryEnd : Nat) : Prop where
  inside : ¬ (privileged = false ∧ OutsideHeap source size)
  changed : s.process.vmManager.exec (.changeMemoryState source size .privateMemory VMAPermission.readWrite
    (sourceState privileged) (sourcePerm privileged)) = some (.success, m₁)
  first : m₁.backing source = some memory
  lastPos : 0 < memoryEnd
  last : m₁.backing (source + size - 1) = some (memoryEnd - 1)
  mapped : m₁.MapsBlocks target size memory memoryEnd (targetState privileged) perms m₂

private theorem map_steps (hm : s.process.vmManager.Sound) (ht : target < 2 ^ 32) (hs : source < 2 ^ 32)
    (hz : size < 2 ^ 32) (hover : ¬ Overlapping target source size)
    (h : s.map target source size perms privileged = .ok (.success, s₁)) :
    ∃ m₁ m₂ memory memoryEnd, s₁ = s.setVMManager m₂ ∧
      MapSteps s target source size perms privileged m₁ m₂ memory memoryEnd := by
  by_cases hout : privileged = false ∧ OutsideHeap source size
  · unfold map at h
    rw [if_pos (by simpa using hout)] at h
    cases h
  unfold map at h
  rw [if_neg (by simpa using hout), if_neg hover] at h
  obtain ⟨b, -, h⟩ := ok_of_bind h
  cases b with
  | true => cases h
  | false =>
    obtain ⟨⟨r, s'⟩, hchange, h⟩ := ok_of_bind h
    obtain ⟨m₁, rfl, hexec⟩ := changeMemoryState_exec hchange
    simp only at h
    split at h
    · rename_i hr
      cases h
      exact absurd rfl hr
    rename_i hr
    have hr : r = .success := not_not.mp hr
    subst hr
    obtain ⟨hrange, hm₁, hmapped⟩ := mapped_of_changeMemoryState hm hs hz hexec
    have hpos := hrange.pos
    have hfits := hrange.fits
    have hmax : VMManager.maxAddress < 2 ^ 32 := by decide
    obtain ⟨res, hres, h⟩ := ok_of_bind h
    rw [unwrap_eq_ok] at hres
    cases res with
    | error e =>
      obtain ⟨res', hres', herr⟩ := VMManager.getBackingBlocksForRange_returns hm₁.tiled hpos hfits
      have hsame : res' = .error e := Option.some_injective _ (hres'.symm.trans hres)
      exact absurd hmapped (herr e hsame).2
    | ok blocks =>
      obtain ⟨m₂, hblocks, h⟩ := ok_of_bind h
      cases h
      have hlists := VMManager.getBackingBlocksForRange_lists ⟨hm₁.tiled, hm₁.unlocked⟩
        (show source + size < 2 ^ 32 by omega) hres
      have hsmall : ∀ b ∈ blocks, b.2 < 2 ^ 32 := by
        intro b hb
        have hle := hlists.size_le hb
        omega
      have hne : blocks ≠ [] := by
        rintro rfl
        have hend : source = source + size := hlists
        omega
      have hall := VMManager.blocks_pos hm₁ blocks ht hsmall hblocks
      have hsize : VMManager.blocksSize blocks = size := by
        have := hlists.size_eq
        omega
      have hmaps := VMManager.mapBlocks_maps hm₁ blocks hne ht hsmall hblocks
      rw [hsize] at hmaps
      obtain ⟨hlastPos, hlast⟩ := hlists.last hne hall
      exact ⟨m₁, m₂, _, _, rfl, hout, hexec, hlists.first hne hall, hlastPos, hlast, hmaps⟩

def ContinuesSource (s : ProcessMemory) (target source size : Nat) (privileged : Bool) : Prop :=
  (∃ memory, s.process.vmManager.backing source = some memory ∧
    s.process.vmManager.JoinsBefore target memory (targetState privileged)) ∨
  ∃ memory, s.process.vmManager.backing (source + size - 1) = some memory ∧
    s.process.vmManager.Continues (target + size) (memory + 1) (targetState privileged)

def SourcePrivate (s : ProcessMemory) (source size : Nat) : Prop :=
  ∀ x, source ≤ x → x < source + size → ∀ a ∈ absAt s.process.vmManager.vmaMap x,
    a.meminfoState = .privateMemory ∧ a.permissions = VMAPermission.readWrite

section Inverse

variable {m₁ m₂ : VMManager} {memory memoryEnd : Nat}

section

variable (h : MapSteps s target source size perms privileged m₁ m₂ memory memoryEnd)

include h

private theorem MapSteps.absAt_changed
    (hm : s.process.vmManager.Sound) (hs : source < 2 ^ 32) (hz : size < 2 ^ 32) (x : Nat) :
    absAt m₁.vmaMap x = if source ≤ x ∧ x < source + size then
      (absAt s.process.vmManager.vmaMap x).map fun a =>
        { a with permissions := sourcePerm privileged, meminfoState := sourceState privileged }
      else absAt s.process.vmManager.vmaMap x := by
  have hop : VMManager.Op.IsU32 (.changeMemoryState source size .privateMemory VMAPermission.readWrite
    (sourceState privileged) (sourcePerm privileged)) := ⟨hs, hz⟩
  exact (VMManager.exec_ok hm.tiled hm.unlocked hop h.changed).changes rfl x

private theorem MapSteps.continues_iff (hm : s.process.vmManager.Sound) (hs : source < 2 ^ 32) (hz : size < 2 ^ 32)
    (hsrc : s.SourcePrivate source size) (x pointer : Nat) : m₁.Continues x pointer (targetState privileged) ↔
      s.process.vmManager.Continues x pointer (targetState privileged) := by
  unfold VMManager.Continues
  rw [h.absAt_changed hm hs hz x]
  split
  · rename_i hx
    constructor
    · intro ha
      obtain ⟨a, -, ha⟩ := Option.map_eq_some_iff.mp ha
      exact absurd (congrArg PageAttr.meminfoState ha) (sourceState_ne_targetState privileged)
    · intro ha
      exact absurd (hsrc x hx.1 hx.2 _ ha).1 (targetState_ne_private privileged)
  · exact Iff.rfl

private theorem MapSteps.continuesSource_iff
    (hm : s.process.vmManager.Sound) (hs : source < 2 ^ 32) (hz : size < 2 ^ 32)
    (hsrc : s.SourcePrivate source size) : s.ContinuesSource target source size privileged ↔
      m₁.JoinsBefore target memory (targetState privileged) ∨
        m₁.Continues (target + size) memoryEnd (targetState privileged) := by
  have hback := (VMManager.changeMemoryState_backing ⟨hm.tiled, hm.unlocked⟩ hs hz h.changed).2
  have hfirst := h.first
  have hlast := h.last
  have hpos := h.lastPos
  rw [hback] at hfirst hlast
  unfold ContinuesSource
  rw [hfirst, hlast]
  unfold VMManager.JoinsBefore
  rw [h.continues_iff hm hs hz hsrc, h.continues_iff hm hs hz hsrc]
  simp only [Option.some.injEq, exists_eq_left', Nat.sub_add_cancel hpos]

private theorem MapSteps.source_attr (hm : s.process.vmManager.Sound) (hs : source < 2 ^ 32) (hz : size < 2 ^ 32)
    (hover : ¬ Overlapping target source size) {x : Nat} (hx : source ≤ x) (hx' : x < source + size) {a : PageAttr}
    (ha : absAt s.process.vmManager.vmaMap x = some a) :
    ∃ q, absAt m₂.vmaMap x = some { a with permissions := q, meminfoState := sourceState privileged } := by
  have h₁ := h.absAt_changed hm hs hz x
  rw [if_pos ⟨hx, hx'⟩, ha] at h₁
  rcases h.mapped.others x (apart_of_not_overlapping hover hx hx') with heq | ⟨b, hb, -, hb'⟩
  · exact ⟨_, heq.trans h₁⟩
  · rw [h₁] at hb
    cases hb
    exact ⟨_, hb'⟩

/-- `Unmap` after `Map` succeeds: the target is blank, the source is private again, and everything else stays. -/
private theorem MapSteps.unmap
    (hm : s.process.vmManager.Sound) (hs : source < 2 ^ 32) (hz : size < 2 ^ 32)
    (hover : ¬ Overlapping target source size) :
    ∃ m₄ : VMManager, (s.setVMManager m₂).unmap target source size VMAPermission.readWrite privileged =
        .ok (.success, s.setVMManager m₄) ∧ m₄.Sound ∧
      (∀ x, target ≤ x → x < target + size →
        absAt m₄.vmaMap x = some ⟨.free, VMAPermission.none, .free, 0⟩) ∧
      (∀ x, source ≤ x → x < source + size → ∀ a, absAt s.process.vmManager.vmaMap x = some a →
        absAt m₄.vmaMap x = some { a with permissions := VMAPermission.readWrite, meminfoState := .privateMemory }) ∧
      ∀ x, ¬ (target ≤ x ∧ x < target + size) → ¬ (source ≤ x ∧ x < source + size) →
        absAt m₄.vmaMap x = absAt m₂.vmaMap x := by
  have hmax : VMManager.maxAddress < 2 ^ 32 := by decide
  obtain ⟨hrange, -, hmapped₁⟩ := mapped_of_changeMemoryState hm hs hz h.changed
  have hm₂ := h.mapped.sound
  have hfits := h.mapped.fits
  have hrange' : VMManager.RangeOk target size := ⟨hrange.alignedSize, h.mapped.aligned, h.mapped.pos, hfits⟩
  -- the target is mapped, so it can be unmapped
  obtain ⟨⟨r₃, m₃⟩, h₃⟩ := Option.isSome_iff_exists.mp
    (VMManager.exec_isSome hm₂.tiled hm₂.unlocked (show VMManager.Op.InRange (.unmapRange target size) from hrange'))
  have hop₃ : VMManager.Op.IsU32 (.unmapRange target size) := ⟨show target < 2 ^ 32 by omega, hz⟩
  have hok₃ := VMManager.exec_ok hm₂.tiled hm₂.unlocked hop₃ h₃
  have hm₃ := hm₂.exec hop₃ h₃
  have h₃ : m₂.unmapRange target size = some (r₃, m₃) := h₃
  have hr₃ : r₃ = .success := by
    refine (VMManager.unmapRange_success_iff hm₂.tiled hrange' h₃).mpr ?_
    intro x hx hx' a ha
    obtain ⟨b, hb, htype, -⟩ := h.mapped.block x hx hx'
    have hab : a = b := Option.some_injective _ (Eq.trans (Eq.symm ha) hb)
    rw [hab, htype]
    exact fun hfree => nomatch hfree
  subst hr₃
  have habs₃ : ∀ x, absAt m₃.vmaMap x = if target ≤ x ∧ x < target + size then
      (absAt m₂.vmaMap x).map fun _ => ⟨.free, VMAPermission.none, .free, 0⟩ else absAt m₂.vmaMap x :=
    fun x => hok₃.changes rfl x
  -- the source is as `Map` has left it, so its state can be changed back
  have hsource₃ : ∀ x, source ≤ x → x < source + size → ∀ a, absAt s.process.vmManager.vmaMap x = some a →
      ∃ q, absAt m₃.vmaMap x = some { a with permissions := q, meminfoState := sourceState privileged } := by
    intro x hx hx' a ha
    rw [habs₃ x, if_neg (apart_of_not_overlapping hover hx hx')]
    exact h.source_attr hm hs hz hover hx hx' ha
  have hsfits := hrange.fits
  have hop₄ : VMManager.Op.InRange (.changeMemoryState source size (sourceState privileged) VMAPermission.none
    .privateMemory VMAPermission.readWrite) := hrange
  obtain ⟨⟨r₄, m₄⟩, h₄⟩ := Option.isSome_iff_exists.mp (VMManager.exec_isSome hm₃.tiled hm₃.unlocked hop₄)
  have hop₄ : VMManager.Op.IsU32 (.changeMemoryState source size (sourceState privileged) VMAPermission.none
    .privateMemory VMAPermission.readWrite) := ⟨hs, hz⟩
  have hok₄ := VMManager.exec_ok hm₃.tiled hm₃.unlocked hop₄ h₄
  have hmapped := ((VMManager.changeMemoryState_success_iff hm.tiled hm.unlocked hrange h.changed).mp rfl).1
  have hr₄ : r₄ = .success := by
    refine (VMManager.changeMemoryState_success_iff hm₃.tiled hm₃.unlocked hrange h₄).mpr ⟨?_, ?_⟩
    · intro x hx hx' b hb
      obtain ⟨a, ha⟩ := VMManager.exists_attr hm.tiled (show x < VMManager.maxAddress by omega)
      obtain ⟨q, hq⟩ := hsource₃ x hx hx' a ha
      have hbq := Option.some_injective _ (Eq.trans (Eq.symm hb) hq)
      rw [hbq]
      exact hmapped x hx hx' a ha
    · intro x hx hx' b hb
      obtain ⟨a, ha⟩ := VMManager.exists_attr hm.tiled (show x < VMManager.maxAddress by omega)
      obtain ⟨q, hq⟩ := hsource₃ x hx hx' a ha
      have hbq := Option.some_injective _ (Eq.trans (Eq.symm hb) hq)
      rw [hbq]
      exact ⟨rfl, UInt8.and_zero⟩
  subst hr₄
  have habs₄ : ∀ x, absAt m₄.vmaMap x = if source ≤ x ∧ x < source + size then
      (absAt m₃.vmaMap x).map fun a => { a with permissions := VMAPermission.readWrite, meminfoState := .privateMemory }
      else absAt m₃.vmaMap x := fun x => hok₄.changes rfl x
  refine ⟨m₄, ?_, hm₃.exec hop₄ h₄, ?_, ?_, ?_⟩
  · rw [unmap_of_some h.inside hover h₃, if_neg (not_not.mpr rfl)]
    exact changeMemoryState_returns h₄
  · intro x hx hx'
    have hno : ¬ (source ≤ x ∧ x < source + size) := fun hin =>
      apart_of_not_overlapping hover hin.1 hin.2 ⟨hx, hx'⟩
    obtain ⟨b, hb, -, -⟩ := h.mapped.block x hx hx'
    rw [habs₄ x, if_neg hno, habs₃ x, if_pos ⟨hx, hx'⟩, hb]
    rfl
  · intro x hx hx' a ha
    obtain ⟨q, hq⟩ := hsource₃ x hx hx' a ha
    rw [habs₄ x, if_pos ⟨hx, hx'⟩, hq]
    rfl
  · intro x hx hx'
    rw [habs₄ x, if_neg hx', habs₃ x, if_neg hx]

private theorem MapSteps.others_eq
    (hjoin : perms = VMAPermission.readWrite ∨ ¬ (m₁.JoinsBefore target memory (targetState privileged) ∨
      m₁.Continues (target + size) memoryEnd (targetState privileged))) {x : Nat}
    (hx : ¬ (target ≤ x ∧ x < target + size)) : absAt m₂.vmaMap x = absAt m₁.vmaMap x := by
  rcases hjoin with hrw | hno
  · rcases h.mapped.others x hx with heq | ⟨a, ha, harw, ha'⟩
    · exact heq
    · rw [ha', ha, hrw, ← harw]
  · exact h.mapped.exactly (fun hb => hno (Or.inl hb)) (fun ha => hno (Or.inr ha)) x hx

end

end Inverse

/-- `Unmap` undoes `Map` exactly when `Map` gives the permissions that memory is mapped with, or no neighbour of the
target continues the source. -/
theorem unmap_undoes_map_iff (s : ProcessMemory) (hm : s.process.vmManager.Reachable) (target source size : Nat)
    (ht : target < 2 ^ 32) (hs : source < 2 ^ 32) (hz : size < 2 ^ 32) (perms : VMAPermission) (privileged : Bool)
    (hsrc : s.SourcePrivate source size) (hover : ¬ Overlapping target source size) (s₁ : ProcessMemory)
    (hmap : s.map target source size perms privileged = .ok (.success, s₁)) :
    (∃ s₂, s₁.unmap target source size VMAPermission.readWrite privileged = .ok (.success, s₂) ∧
      ∀ page, s₂.pageMap page = s.pageMap page) ↔
      perms = VMAPermission.readWrite ∨ ¬ s.ContinuesSource target source size privileged := by
  have hsound := hm.sound
  obtain ⟨m₁, m₂, memory, memoryEnd, rfl, h⟩ := map_steps hsound ht hs hz hover hmap
  obtain ⟨m₄, hunmap, hm₄, htarget, hsource, hothers⟩ := h.unmap hsound hs hz hover
  rw [h.continuesSource_iff hsound hs hz hsrc]
  constructor
  · rintro ⟨s₂, hs₂, hrestored⟩
    rw [hunmap] at hs₂
    cases hs₂
    by_contra hcon
    rw [not_or, not_not] at hcon
    obtain ⟨hperms, hjoin⟩ := hcon
    -- the neighbour that has been merged is left with the permissions of the target
    have hleft : ∀ x pointer, ¬ (target ≤ x ∧ x < target + size) → m₁.Continues x pointer (targetState privileged) →
        ∀ a, absAt m₂.vmaMap x = some a → a.permissions ≠ perms := by
      intro x pointer hx hcont a ha hap
      rw [h.continues_iff hsound hs hz hsrc] at hcont
      have hnot : ¬ (source ≤ x ∧ x < source + size) := by
        intro hin
        exact targetState_ne_private privileged (hsrc x hin.1 hin.2 _ hcont).1
      rw [← hothers x hx hnot] at ha
      obtain ⟨b, hb, hbp⟩ := VMManager.permissions_page hm₄ ha
      obtain ⟨c, hc, hcp⟩ := VMManager.permissions_page hsound hcont
      have hpage : absAt m₄.vmaMap (x / pageSize * pageSize) =
        absAt s.process.vmManager.vmaMap (x / pageSize * pageSize) := hrestored (x / pageSize)
      rw [hb, hc] at hpage
      have hbc : b = c := Option.some_injective _ hpage
      apply hperms
      rw [← hap, ← hbp, hbc, hcp]
    rcases hjoin with hbefore | hafter
    · obtain ⟨a, ha, hap⟩ := h.mapped.before hbefore
      have hpos := hbefore.1
      exact hleft _ _ (by omega) hbefore.2.2 a ha hap
    · obtain ⟨a, ha, hap⟩ := h.mapped.after hafter
      exact hleft _ _ (by omega) hafter a ha hap
  · intro hjoin
    refine ⟨_, hunmap, fun page => ?_⟩
    have hall : ∀ x, absAt m₄.vmaMap x = absAt s.process.vmManager.vmaMap x := by
      intro x
      have hchanged := h.absAt_changed hsound hs hz x
      by_cases hx : target ≤ x ∧ x < target + size
      · -- the target was blank
        have hnot : ¬ (source ≤ x ∧ x < source + size) := fun hin =>
          apart_of_not_overlapping hover hin.1 hin.2 hx
        obtain ⟨a, ha, hfree⟩ := h.mapped.free x hx.1 hx.2
        rw [if_neg hnot, ha] at hchanged
        rw [htarget x hx.1 hx.2, ← hchanged, hsound.blank x a hchanged.symm hfree]
      · by_cases hx' : source ≤ x ∧ x < source + size
        · -- the source was private
          have hfits := (mapped_of_changeMemoryState hsound hs hz h.changed).1.fits
          obtain ⟨a, ha⟩ := VMManager.exists_attr hsound.tiled (show x < VMManager.maxAddress by omega)
          obtain ⟨hstate, hperms⟩ := hsrc x hx'.1 hx'.2 a ha
          rw [hsource x hx'.1 hx'.2 a ha, ha, ← hstate, ← hperms]
        · rw [hothers x hx hx', h.others_eq hjoin hx, hchanged, if_neg hx']
    exact hall (page * pageSize)

/-- A page of the heap is mapped read only at an address without neighbours, and unmapped. -/
theorem heapOps_unmap_undoes_map :
    ∃ m s₁ s₂, VMManager.reset.run heapOps = some m ∧
      (ofVMManager m).map 0x10000000 0x8000000 0x1000 1 false = .ok (.success, s₁) ∧
      s₁.unmap 0x10000000 0x8000000 0x1000 VMAPermission.readWrite false = .ok (.success, s₂) ∧
      ∀ page, s₂.pageMap page = (ofVMManager m).pageMap page := by
  obtain ⟨m, hm⟩ : ∃ m, m = VMManager.mk
    [(0, { size := 0x8000000 }),
      (0x8000000, ⟨0x8000000, 0x2000, .backingMemory, 3, .privateMemory, 0x100000⟩),
      (0x8002000, { base := 0x8002000, size := 0x37FFE000 })] false := ⟨_, rfl⟩
  have hrun : VMManager.reset.run heapOps = some m := by
    rw [hm]
    rfl
  obtain ⟨s₁, hmap⟩ : ∃ s₁, (ofVMManager m).map 0x10000000 0x8000000 0x1000 1 false = .ok (.success, s₁) := by
    rw [hm]
    exact ⟨_, rfl⟩
  have hsrc : (ofVMManager m).SourcePrivate 0x8000000 0x1000 := by
    intro x hx hx' a ha
    have habs : absAt m.vmaMap x = some ⟨.backingMemory, 3, .privateMemory, 0x100000 + (x - 0x8000000)⟩ := by
      rw [hm, absAt_cons, if_neg (by unfold stop; simp only; omega), absAt_cons,
        if_pos (by unfold stop; simp only; omega)]
      rfl
    have ha := habs.symm.trans ha
    cases ha
    exact ⟨rfl, rfl⟩
  have hno : ¬ (ofVMManager m).ContinuesSource 0x10000000 0x8000000 0x1000 false := by
    rw [hm]
    rintro (⟨memory, -, -, -, h⟩ | ⟨memory, -, h⟩)
    · have htype : some VMAType.free = some VMAType.backingMemory := congrArg (Option.map PageAttr.type) h
      cases htype
    · have htype : some VMAType.free = some VMAType.backingMemory := congrArg (Option.map PageAttr.type) h
      cases htype
  obtain ⟨s₂, hunmap, hpages⟩ := (unmap_undoes_map_iff (ofVMManager m)
    (VMManager.Reachable.reset.run heapOps (by decide) hrun) 0x10000000 0x8000000 0x1000 (by decide) (by decide)
    (by decide) 1 false hsrc (by decide) s₁ hmap).mpr (Or.inr hno)
  exact ⟨m, s₁, s₂, hrun, hmap, hunmap, hpages⟩

def neighbourOps : List VMManager.Op :=
  [.mapBackingMemory 0x8000000 0x100000 0x2000 .privateMemory,
    .changeMemoryState 0x8000000 0x1000 .privateMemory 3 .aliased 3,
    .mapBackingMemory 0x10000000 0x100000 0x1000 .aliasMemory]

/-- The second page is mapped read only right after the alias of the first one.  The alias becomes read only too, and
it stays so. -/
theorem neighbourOps_not_undone :
    ∃ m s₁, VMManager.reset.run neighbourOps = some m ∧ m.Reachable ∧
      (ofVMManager m).SourcePrivate 0x8001000 0x1000 ∧ ¬ Overlapping 0x10001000 0x8001000 0x1000 ∧
      (ofVMManager m).map 0x10001000 0x8001000 0x1000 1 false = .ok (.success, s₁) ∧
      ¬ ∃ s₂, s₁.unmap 0x10001000 0x8001000 0x1000 VMAPermission.readWrite false = .ok (.success, s₂) ∧
        ∀ page, s₂.pageMap page = (ofVMManager m).pageMap page := by
  obtain ⟨m, hm⟩ : ∃ m, m = VMManager.mk
    [(0, { size := 0x8000000 }),
      (0x8000000, ⟨0x8000000, 0x1000, .backingMemory, 3, .aliased, 0x100000⟩),
      (0x8001000, ⟨0x8001000, 0x1000, .backingMemory, 3, .privateMemory, 0x101000⟩),
      (0x8002000, { base := 0x8002000, size := 0x7FFE000 }),
      (0x10000000, ⟨0x10000000, 0x1000, .backingMemory, 3, .aliasMemory, 0x100000⟩),
      (0x10001000, { base := 0x10001000, size := 0x2FFFF000 })] false := ⟨_, rfl⟩
  have hrun : VMManager.reset.run neighbourOps = some m := by
    rw [hm]
    rfl
  refine ⟨m, _, hrun, VMManager.Reachable.reset.run neighbourOps (by decide) hrun, ?_, by decide, by rw [hm]; rfl, ?_⟩
  · intro x hx hx' a ha
    have habs : absAt m.vmaMap x = some ⟨.backingMemory, 3, .privateMemory, 0x101000 + (x - 0x8001000)⟩ := by
      rw [hm, absAt_cons, if_neg (by unfold stop; simp only; omega), absAt_cons,
        if_neg (by unfold stop; simp only; omega), absAt_cons, if_pos (by unfold stop; simp only; omega)]
      rfl
    have ha := habs.symm.trans ha
    cases ha
    exact ⟨rfl, rfl⟩
  · rintro ⟨s₂, hs₂, hpages⟩
    cases hs₂
    have hpage := hpages 0x10000
    rw [hm] at hpage
    exact absurd hpage (by decide)

end ProcessMemory

end SweepDSEmu
