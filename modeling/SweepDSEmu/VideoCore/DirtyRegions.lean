import SweepDSEmu.VideoCore.CacheRun

/-!
# The owners of dirty regions

A dirty region belongs to a registered surface that holds valid data there, and a byte leaves the dirty regions only
when it has been written back to memory or is overwritten.

This needs the owner of an invalidated region to be registered.  The destructor of `FramebufferHelper` does not ensure
it: it invalidates the region of the color surface and then that of the depth surface, and the first call unregisters
a depth surface that lies in the same memory.
-/

namespace SweepDSEmu.VideoCore

open Function

namespace RasterizerCache

variable {s s' s'' : RasterizerCache}

def OwnersValid (s : RasterizerCache) : Prop :=
  ∀ segment ∈ s.dirtyRegions.segments, ∃ surface, s.slotSurfaces.values segment.value = some surface ∧
    surface.registered = true ∧ surface.params.addr ≤ segment.lower ∧ segment.upper ≤ surface.params.endAddr ∧
    surface.isRegionValid segment.lower segment.upper = true

def Overwrites : Op → Nat → Prop
  | .invalidateRegion addr size _, p => addr ≤ p ∧ p < addr + size
  | .accelerateFill startAddr endAddr, p => startAddr ≤ p ∧ p < endAddr
  | _, _ => False

def WrittenBack (s s' : RasterizerCache) (id : SurfaceId) (p : Nat) : Prop :=
  ∃ downloads, s'.downloads = s.downloads ++ downloads ∧
    ∃ segment ∈ downloads, segment.value = id ∧ segment.lower ≤ p ∧ p < segment.upper

/-- A dirty byte outside of `R` stays dirty or is written back. -/
def LosesOnly (R : Nat → Prop) (s s' : RasterizerCache) : Prop :=
  ∀ p id, s.dirtyRegions.get? p = some id → ¬ R p → s'.dirtyRegions.get? p = some id ∨ WrittenBack s s' id p

/-- What the GPU writes becomes dirty. -/
def Records (s' : RasterizerCache) : Op → Prop
  | .invalidateRegion addr size (some id) => ∀ p, addr ≤ p → p < addr + size → s'.dirtyRegions.get? p = some id
  | .accelerateFill startAddr endAddr =>
    ∃ id, ∀ p, startAddr ≤ p → p < endAddr → s'.dirtyRegions.get? p = some id
  | _ => True

def OwnerOk (s : RasterizerCache) : Op → Prop
  | .unregisterSurface id => ∀ p, s.dirtyRegions.get? p ≠ some id
  | .invalidateRegion addr size owner => addr + size < 2 ^ 32 ∧
    ∀ id, owner = some id → ∃ surface, s.slotSurfaces.values id = some surface ∧ surface.registered = true
  | .accelerateFill startAddr endAddr => startAddr < endAddr ∧ endAddr < 2 ^ 32
  | .clearAll flush => flush = true
  | _ => True

/-- The runs whose steps satisfy the conditions. -/
inductive OwnedRun : RasterizerCache → Prop where
  | init (pluginFb : Nat) : OwnedRun (create pluginFb)
  | step {s s' : RasterizerCache} (op : Op) : OwnedRun s → OpOk False s op → OwnerOk s op → s.exec op = .ok s' →
    OwnedRun s'

structure Owns (s : RasterizerCache) (id : SurfaceId) (p : Nat) : Prop where
  surface : ∃ surface, s.slotSurfaces.values id = some surface ∧ surface.registered = true ∧
    surface.params.addr ≤ p ∧ p < surface.params.endAddr ∧ p ∉ surface.invalidRegions.points

/-- The owners of the bytes outside of `R` may own them. -/
def DirtyOutside (R : Nat → Prop) (s : RasterizerCache) : Prop :=
  ∀ p id, s.dirtyRegions.get? p = some id → ¬ R p → Owns s id p

def DirtyOk (s : RasterizerCache) : Prop := DirtyOutside (fun _ => False) s

variable {surfaces : List SurfaceId} {addr size : Nat} {R : Nat → Prop} {owner : Option SurfaceId} {id : SurfaceId}
  {params : SurfaceParams}

theorem DirtyOk.owns (h : DirtyOk s) {p : Nat} (hp : s.dirtyRegions.get? p = some id) : Owns s id p :=
  h p id hp fun hfalse => hfalse

theorem DirtyOk.ownersValid (h : DirtyOk s) : OwnersValid s := by
  intro segment hsegment
  have hlt := IntervalMap.lower_lt_upper hsegment
  have hget : ∀ p, segment.lower ≤ p → p < segment.upper → Owns s segment.value p :=
    fun p hl hu => h.owns (IntervalMap.get?_of_mem hsegment hl hu)
  obtain ⟨surface, hs, hreg, haddr, -⟩ := (hget segment.lower le_rfl hlt).surface
  have hsame : ∀ p, segment.lower ≤ p → p < segment.upper →
      p < surface.params.endAddr ∧ p ∉ surface.invalidRegions.points := by
    intro p hl hu
    obtain ⟨surface', hs', -, -, hend, hvalid⟩ := (hget p hl hu).surface
    rw [hs, Option.some.injEq] at hs'
    rw [hs']
    exact ⟨hend, hvalid⟩
  refine ⟨surface, hs, hreg, haddr, ?_, ?_⟩
  · have hlast := (hsame (segment.upper - 1) (by omega) (by omega)).1
    omega
  · unfold Surface.isRegionValid
    rw [IntervalSet.intersects_eq_false]
    · rfl
    · intro x hx
      have hx := IntervalSet.mem_between.mp hx
      exact (hsame x hx.1 hx.2).2

theorem DirtyOutside.mono (h : DirtyOutside R s)
    (hdirty : ∀ p id, s'.dirtyRegions.get? p = some id → ¬ R p → s.dirtyRegions.get? p = some id)
    (howners : ∀ p id, s.dirtyRegions.get? p = some id → ¬ R p → Owns s id p → Owns s' id p) : DirtyOutside R s' := by
  intro p id hp hR
  have hold := hdirty p id hp hR
  exact howners p id hold hR (h p id hold hR)

theorem Owns.of_values {p : Nat} (h : Owns s id p)
    (hvalues : ∀ surface, s.slotSurfaces.values id = some surface → surface.registered = true →
      s'.slotSurfaces.values id = some surface) : Owns s' id p := by
  obtain ⟨surface, hs, hreg, hrest⟩ := h.surface
  exact ⟨surface, hvalues surface hs hreg, hreg, hrest⟩

theorem Owns.markValid {id other : SurfaceId} {p l u : Nat} (h : Owns s id p) :
    Owns (s.modifySurface other (Surface.markValid l u)) id p := by
  obtain ⟨surface, hs, hreg, haddr, hend, hvalid⟩ := h.surface
  by_cases hid : id = other
  · subst hid
    refine ⟨surface.markValid l u, ?_, hreg, haddr, hend, ?_⟩
    · unfold modifySurface
      rw [SlotVector.modify_values, update_self, hs, Option.map_some]
    · unfold Surface.markValid
      rw [IntervalSet.points_subtract]
      exact fun hmem => hvalid hmem.1
  · refine ⟨surface, ?_, hreg, haddr, hend, hvalid⟩
    unfold modifySurface
    rw [SlotVector.modify_values, update_of_ne hid]
    exact hs

theorem WrittenBack.trans_left {p : Nat} (h : WrittenBack s s' id p)
    (hlog : ∃ downloads, s''.downloads = s'.downloads ++ downloads) : WrittenBack s s'' id p := by
  obtain ⟨downloads, heq, segment, hsegment, hin⟩ := h
  obtain ⟨downloads', heq'⟩ := hlog
  refine ⟨downloads ++ downloads', ?_, segment, List.mem_append_left _ hsegment, hin⟩
  rw [heq', heq, List.append_assoc]

theorem WrittenBack.trans_right {p : Nat} (h : WrittenBack s' s'' id p)
    (hlog : ∃ downloads, s'.downloads = s.downloads ++ downloads) : WrittenBack s s'' id p := by
  obtain ⟨downloads, heq, segment, hsegment, hin⟩ := h
  obtain ⟨downloads', heq'⟩ := hlog
  refine ⟨downloads' ++ downloads, ?_, segment, List.mem_append_right _ hsegment, hin⟩
  rw [heq, heq', List.append_assoc]

/-- A change that loses only bytes of `R`, with the log of what is written back. -/
structure Loss (R : Nat → Prop) (s s' : RasterizerCache) : Prop where
  log : ∃ downloads, s'.downloads = s.downloads ++ downloads
  only : LosesOnly R s s'

theorem Loss.refl (R : Nat → Prop) (s : RasterizerCache) : Loss R s s :=
  ⟨⟨[], by simp⟩, fun _ _ hp _ => Or.inl hp⟩

theorem Loss.trans (h : Loss R s s') (h' : Loss R s' s'') : Loss R s s'' := by
  obtain ⟨downloads, heq⟩ := h.log
  obtain ⟨downloads', heq'⟩ := h'.log
  refine ⟨⟨downloads ++ downloads', by rw [heq', heq, List.append_assoc]⟩, ?_⟩
  intro p id hp hR
  rcases h.only p id hp hR with hkept | hback
  · rcases h'.only p id hkept hR with hkept' | hback'
    · exact Or.inl hkept'
    · exact Or.inr (hback'.trans_right h.log)
  · exact Or.inr (hback.trans_left h'.log)

theorem Loss.mono {R R' : Nat → Prop} (h : Loss R s s') (hR : ∀ p, R p → R' p) : Loss R' s s' :=
  ⟨h.log, fun p id hp hn => h.only p id hp fun hr => hn (hR p hr)⟩

theorem Loss.of_eq (hdirty : s'.dirtyRegions = s.dirtyRegions) (hlog : s'.downloads = s.downloads) :
    Loss R s s' := by
  refine ⟨⟨[], by rw [hlog, List.append_nil]⟩, ?_⟩
  intro p id hp _
  rw [hdirty]
  exact Or.inl hp

theorem get?_foldl_erase (m : IntervalMap SurfaceId) (segments : List (Segment SurfaceId)) (p : Nat) :
    (segments.foldl (fun m segment => m.erase segment.lower segment.upper) m).get? p =
      if ∃ segment ∈ segments, segment.lower ≤ p ∧ p < segment.upper then none else m.get? p := by
  induction segments generalizing m with
  | nil => simp
  | cons segment segments ih =>
    rw [List.foldl_cons, ih, IntervalMap.get?_erase]
    simp only [List.mem_cons, exists_eq_or_imp]
    by_cases hin : segment.lower ≤ p ∧ p < segment.upper
    · rw [if_pos hin, if_pos (Or.inl hin), ite_self]
    · rw [if_neg hin]
      simp only [hin, false_or]

/-- What `FlushRegion` does: the surfaces stay, and dirty bytes leave only when they are written back. -/
structure Flushed (s s' : RasterizerCache) : Prop where
  slotSurfaces : s'.slotSurfaces = s.slotSurfaces
  loss : Loss (fun _ => False) s s'
  less : ∀ p id, s'.dirtyRegions.get? p = some id → s.dirtyRegions.get? p = some id

theorem Flushed.refl (s : RasterizerCache) : Flushed s s := ⟨rfl, Loss.refl _ s, fun _ _ hp => hp⟩

theorem Flushed.trans (h : Flushed s s') (h' : Flushed s' s'') : Flushed s s'' :=
  ⟨h'.slotSurfaces.trans h.slotSurfaces, h.loss.trans h'.loss, fun p id hp => h.less p id (h'.less p id hp)⟩

theorem Flushed.dirtyOutside (h : Flushed s s') (hd : DirtyOutside R s) : DirtyOutside R s' := by
  refine hd.mono (fun p id hp _ => h.less p id hp) ?_
  intro p id _ _ howns
  refine howns.of_values ?_
  intro surface hs _
  rw [h.slotSurfaces]
  exact hs

theorem DirtyOk.flushRegion (h : DirtyOk s) (addr size : Nat) (flushSurface : Option SurfaceId) :
    ∃ s', s.flushRegion addr size flushSurface = .ok s' ∧ Flushed s s' ∧
      (size ≠ 0 → ∀ p id, addr ≤ p → p < addU32 addr size → (flushSurface = none ∨ flushSurface = some id) →
        s'.dirtyRegions.get? p ≠ some id) := by
  unfold RasterizerCache.flushRegion
  split_ifs with hsize
  · exact ⟨s, rfl, Flushed.refl s, fun hne => absurd hsize hne⟩
  dsimp only
  generalize hsegments : (s.dirtyRegions.range addr (addU32 addr size)).filter (fun segment =>
    decide (flushSurface = none ∨ flushSurface = some segment.value)) = segments
  have hmem : ∀ segment ∈ segments, segment ∈ s.dirtyRegions.segments ∧
      max segment.lower addr < min segment.upper (addU32 addr size) := by
    intro segment hsegment
    rw [← hsegments] at hsegment
    exact IntervalMap.mem_range.mp (List.mem_filter.mp hsegment).1
  have hinside : ∀ segment : Segment SurfaceId,
      segment.lower ≤ (flushInterval addr (addU32 addr size) size segment).lower ∧
        (flushInterval addr (addU32 addr size) size segment).upper ≤ segment.upper ∧
        (flushInterval addr (addU32 addr size) size segment).value = segment.value := by
    intro segment
    unfold flushInterval
    split_ifs
    · exact ⟨le_rfl, le_rfl, rfl⟩
    · exact ⟨Nat.le_max_left _ _, Nat.min_le_left _ _, rfl⟩
  -- the owner of a segment has valid data in it
  have hflush : ∀ segment ∈ segments, s.flushSegment addr (addU32 addr size) size segment =
      .ok (flushInterval addr (addU32 addr size) size segment) := by
    intro segment hsegment
    obtain ⟨surface, hs, -, -, -, hvalid⟩ := h.ownersValid segment (hmem segment hsegment).1
    obtain ⟨hlower, hupper, -⟩ := hinside segment
    unfold flushSegment
    rw [surface_ok hs, ok_bind]
    refine if_pos ?_
    unfold Surface.isRegionValid at hvalid ⊢
    rw [Bool.not_eq_true', Bool.eq_false_iff] at hvalid ⊢
    intro hmeets
    apply hvalid
    unfold IntervalSet.intersects at hmeets ⊢
    rw [List.any_eq_true] at hmeets ⊢
    obtain ⟨q, hq, hlt⟩ := hmeets
    refine ⟨q, hq, ?_⟩
    simp only [decide_eq_true_eq] at hlt ⊢
    omega
  rw [mapM_eq_map hflush, ok_bind]
  have hget := get?_foldl_erase s.dirtyRegions (segments.map (flushInterval addr (addU32 addr size) size))
  refine ⟨_, rfl, ⟨rfl, ⟨⟨_, rfl⟩, ?_⟩, ?_⟩, ?_⟩
  · intro p id hp _
    rw [hget]
    split_ifs with hin
    · right
      obtain ⟨interval, hinterval, hl, hu⟩ := hin
      refine ⟨_, rfl, interval, hinterval, ?_, hl, hu⟩
      obtain ⟨segment, hsegment, rfl⟩ := List.mem_map.mp hinterval
      obtain ⟨hlower, hupper, hvalue⟩ := hinside segment
      have hown := IntervalMap.get?_of_mem (hmem segment hsegment).1 (p := p) (by omega) (by omega)
      rw [hp, Option.some.injEq] at hown
      rw [hvalue, hown]
    · exact Or.inl hp
  · intro p id hp
    rw [hget] at hp
    split_ifs at hp
    exact hp
  · intro _ p id hl hu hfilter hp
    rw [hget] at hp
    split_ifs at hp with hin
    -- a byte that stays dirty was in a segment of the range
    obtain ⟨segment, hsegment, hsl, hsu, hvalue⟩ := IntervalMap.get?_eq_some.mp hp
    have hrange : segment ∈ segments := by
      rw [← hsegments, List.mem_filter, IntervalMap.mem_range]
      refine ⟨⟨hsegment, by omega⟩, ?_⟩
      rw [hvalue]
      simpa using hfilter
    apply hin
    refine ⟨_, List.mem_map_of_mem hrange, ?_⟩
    unfold flushInterval
    split_ifs
    · exact ⟨hsl, hsu⟩
    · dsimp only
      omega

/-- The faults that `OwnersValid` excludes. -/
def Benign (fault : CacheFault) : Prop := fault ≠ .ownerInvalidRegions ∧ fault ≠ .emptyRange

instance : DecidablePred Benign := fun _ => inferInstanceAs (Decidable (_ ∧ _))

/-- A change that keeps the owners valid and loses only bytes of `R`. -/
structure Keeps (R : Nat → Prop) (s s' : RasterizerCache) : Prop where
  dirtyOk : DirtyOk s'
  loss : Loss R s s'

theorem Keeps.trans (h : Keeps R s s') (h' : Keeps R s' s'') : Keeps R s s'' :=
  ⟨h'.dirtyOk, h.loss.trans h'.loss⟩

theorem DirtyOk.keeps_self (h : DirtyOk s) (R : Nat → Prop) : Keeps R s s := ⟨h, Loss.refl R s⟩

theorem DirtyOk.keeps_of_values (h : DirtyOk s) (hdirty : s'.dirtyRegions = s.dirtyRegions)
    (hlog : s'.downloads = s.downloads) (hvalues : ∀ id surface, s.slotSurfaces.values id = some surface →
      surface.registered = true → s'.slotSurfaces.values id = some surface) : Keeps R s s' := by
  refine ⟨h.mono ?_ ?_, Loss.of_eq hdirty hlog⟩
  · intro p id hp _
    rw [hdirty] at hp
    exact hp
  · intro p id _ _ howns
    exact howns.of_values (hvalues id)

theorem DirtyOk.markValid (h : DirtyOk s) (R : Nat → Prop) (id : SurfaceId) (l u : Nat) :
    Keeps R s (s.modifySurface id (Surface.markValid l u)) :=
  ⟨h.mono (fun _ _ hp _ => hp) fun _ _ _ _ howns => howns.markValid, Loss.of_eq rfl rfl⟩

theorem DirtyOk.flush (h : DirtyOk s) (R : Nat → Prop) (addr size : Nat) (flushSurface : Option SurfaceId) :
    ∃ s', s.flushRegion addr size flushSurface = .ok s' ∧ Keeps R s s' := by
  obtain ⟨s', hrun, hflushed, -⟩ := h.flushRegion addr size flushSurface
  exact ⟨s', hrun, hflushed.dirtyOutside h, hflushed.loss.mono fun _ hfalse => hfalse.elim⟩

theorem surface_benign (s : RasterizerCache) (id : SurfaceId) :
    Outcome Benign (fun surface => s.slotSurfaces.values id = some surface) (s.surface id) := by
  unfold RasterizerCache.surface
  cases hs : s.slotSurfaces.values id with
  | none =>
    show Benign _
    decide
  | some surface => rfl

theorem DirtyOk.validateSurface (h : DirtyOk s) (R : Nat → Prop) (id : SurfaceId) (addr size : Nat)
    (validations : List Validation) : Outcome Benign (Keeps R s) (s.validateSurface id addr size validations) := by
  unfold RasterizerCache.validateSurface
  split_ifs
  · exact h.keeps_self R
  · refine Outcome.bind (surface_benign s id) ?_
    intro surface _
    split_ifs
    · exact h.keeps_self R
    · show Benign _
      decide
    · exact h.keeps_self R
    · refine Outcome.foldlM (h.keeps_self R) ?_
      intro s₁ validation _ hkeeps
      cases validation with
      | copied l u => exact hkeeps.trans (hkeeps.dirtyOk.markValid R id l u)
      | uploaded addr size =>
        obtain ⟨s₂, hrun, hkeeps'⟩ := hkeeps.dirtyOk.flush R addr size none
        rw [validate, hrun, ok_bind]
        exact (hkeeps.trans hkeeps').trans (hkeeps'.dirtyOk.markValid R id _ _)

theorem DirtyOk.unregisterSurfaces (h : DirtyOk s) (hkept : Kept False s) (hnodup : surfaces.Nodup)
    (hall : ∀ id ∈ surfaces, ∃ surface, s.slotSurfaces.values id = some surface ∧ surface.registered = true)
    (hnone : ∀ id ∈ surfaces, ∀ p, s.dirtyRegions.get? p ≠ some id) (R : Nat → Prop) :
    ∃ s', surfaces.foldlM RasterizerCache.unregisterSurface s = .ok s' ∧ Keeps R s s' ∧
      s'.dirtyRegions = s.dirtyRegions := by
  obtain ⟨s', hrun, -, hdirty, hlog, hothers⟩ := hkept.unregisterSurfaces hnodup hall
  refine ⟨s', hrun, ⟨h.mono ?_ ?_, Loss.of_eq hdirty hlog⟩, hdirty⟩
  · intro p id hp _
    rw [hdirty] at hp
    exact hp
  · intro p id hp _ howns
    refine howns.of_values ?_
    intro surface hs _
    rw [hothers id fun hmem => hnone id hmem p hp]
    exact hs

private theorem flushSurfaces (addr : Nat) (hsize : size ≤ 8) (h : DirtyOk s)
    (hall : ∀ id ∈ surfaces, ∃ surface, s.slotSurfaces.values id = some surface ∧ 0 < surface.params.size)
    (removed : List SurfaceId) :
    ∃ s', surfaces.foldlM (invalidateSurface addr size none) (s, removed) = .ok (s', removed ++ surfaces) ∧
      Flushed s s' ∧ ∀ id ∈ surfaces, ∀ p, s'.dirtyRegions.get? p ≠ some id := by
  induction surfaces generalizing s removed with
  | nil => exact ⟨s, by rw [List.append_nil]; rfl, Flushed.refl s, by simp⟩
  | cons id surfaces ih =>
    obtain ⟨surface, hs, hpos⟩ := hall id List.mem_cons_self
    obtain ⟨s₁, hrun, hflushed, hgone⟩ := h.flushRegion surface.params.addr surface.params.size (some id)
    obtain ⟨s', hrun', hflushed', hgone'⟩ := ih (hflushed.dirtyOutside h) (by
      intro other hother
      rw [hflushed.slotSurfaces]
      exact hall other (List.mem_cons_of_mem _ hother)) (removed ++ [id])
    refine ⟨s', ?_, hflushed.trans hflushed', ?_⟩
    · have hstep : invalidateSurface addr size none (s, removed) id = .ok (s₁, removed ++ [id]) := by
        unfold invalidateSurface
        dsimp only
        rw [if_neg (by simp), surface_ok hs, ok_bind, if_pos ⟨rfl, hsize⟩, hrun, ok_bind]
      rw [List.foldlM_cons, hstep, ok_bind, hrun', List.append_assoc, List.singleton_append]
    · intro other hother p hp
      rcases List.mem_cons.mp hother with rfl | hother
      · -- what the surface owned lay in its interval, which has been flushed
        have hp₁ := hflushed'.less p other hp
        obtain ⟨surface', hs', -, haddr, hend, -⟩ := (h.owns (hflushed.less p other hp₁)).surface
        rw [hs, Option.some.injEq] at hs'
        rw [← hs'] at haddr hend
        exact hgone (by omega) p other haddr hend (Or.inr rfl) hp₁
      · exact hgone' other hother p hp

def FullyInvalid (s : RasterizerCache) (id : SurfaceId) : Prop :=
  ∀ surface, s.slotSurfaces.values id = some surface →
    IntervalSet.between surface.params.addr surface.params.endAddr ⊆ surface.invalidRegions.points

/-- The states before and after the loop of `InvalidateRegion`: points of the region get invalid, except for the
owner. -/
structure Invalidated (addr u : Nat) (owner : Option SurfaceId) (s s' : RasterizerCache) : Prop where
  dirtyRegions : s'.dirtyRegions = s.dirtyRegions
  downloads : s'.downloads = s.downloads
  surfaces : ∀ id surface, s.slotSurfaces.values id = some surface →
    ∃ surface', s'.slotSurfaces.values id = some surface' ∧ surface'.params = surface.params ∧
      surface'.registered = surface.registered ∧ surface.invalidRegions.points ⊆ surface'.invalidRegions.points ∧
      surface'.invalidRegions.points ⊆ surface.invalidRegions.points ∪ IntervalSet.between addr u
  owner : ∀ id, owner = some id → s'.slotSurfaces.values id = s.slotSurfaces.values id

theorem Invalidated.refl (addr u : Nat) (owner : Option SurfaceId) (s : RasterizerCache) :
    Invalidated addr u owner s s :=
  ⟨rfl, rfl, fun _ surface hs => ⟨surface, hs, rfl, rfl, Set.Subset.rfl, Set.subset_union_left⟩, fun _ _ => rfl⟩

theorem Invalidated.trans {addr u : Nat} (h : Invalidated addr u owner s s')
    (h' : Invalidated addr u owner s' s'') : Invalidated addr u owner s s'' := by
  refine ⟨h'.dirtyRegions.trans h.dirtyRegions, h'.downloads.trans h.downloads, ?_, ?_⟩
  · intro id surface hs
    obtain ⟨surface', hs', hparams, hreg, hsub, hsup⟩ := h.surfaces id surface hs
    obtain ⟨surface'', hs'', hparams', hreg', hsub', hsup'⟩ := h'.surfaces id surface' hs'
    refine ⟨surface'', hs'', hparams'.trans hparams, hreg'.trans hreg, hsub.trans hsub', ?_⟩
    intro x hx
    rcases hsup' hx with hx | hx
    · exact hsup hx
    · exact Or.inr hx
  · intro id hid
    rw [h'.owner id hid, h.owner id hid]

theorem FullyInvalid.mono {addr u : Nat} (h : FullyInvalid s id)
    (hs : ∃ surface, s.slotSurfaces.values id = some surface) (hinv : Invalidated addr u owner s s') :
    FullyInvalid s' id := by
  intro surface' hs'
  obtain ⟨surface, hsurface⟩ := hs
  obtain ⟨surface'', hs'', hparams, -, hsub, -⟩ := hinv.surfaces id surface hsurface
  rw [hs', Option.some.injEq] at hs''
  rw [hs'', hparams]
  exact (h surface hsurface).trans hsub

private theorem isFullyInvalid_markInvalid (surface : Surface) {l u : Nat}
    (hlt : max surface.params.addr l < min surface.params.endAddr u) :
    ∃ fullyInvalid, (surface.markInvalid (max surface.params.addr l) (min surface.params.endAddr u)).isFullyInvalid =
        .ok fullyInvalid ∧
      (fullyInvalid = true → IntervalSet.between surface.params.addr surface.params.endAddr ⊆
        (surface.markInvalid (max surface.params.addr l) (min surface.params.endAddr u)).invalidRegions.points) := by
  have hpoint : max surface.params.addr l ∈
      (surface.invalidRegions.add (max surface.params.addr l) (min surface.params.endAddr u)).points := by
    rw [IntervalSet.points_add]
    exact Or.inr ⟨le_rfl, hlt⟩
  obtain ⟨q, hq, hq1, hq2⟩ := IntervalSet.mem_points.mp hpoint
  unfold Surface.isFullyInvalid Surface.markInvalid
  dsimp only
  generalize surface.invalidRegions.add (max surface.params.addr l) (min surface.params.endAddr u) = regions at hq ⊢
  cases hfilter : regions.filter fun p => max p.1 surface.params.addr < min p.2 surface.params.endAddr with
  | nil =>
    have hmem : q ∈ regions.filter fun p => max p.1 surface.params.addr < min p.2 surface.params.endAddr := by
      refine List.mem_filter.mpr ⟨hq, ?_⟩
      simp only [decide_eq_true_eq]
      omega
    rw [hfilter] at hmem
    cases hmem
  | cons first rest =>
    refine ⟨_, rfl, ?_⟩
    intro hfull x hx
    have hfirst : first ∈ regions := (List.mem_filter.mp (hfilter ▸ List.mem_cons_self)).1
    rw [decide_eq_true_eq] at hfull
    rw [hfull] at hfirst
    exact ⟨_, hfirst, hx.1, hx.2⟩

private theorem invalidateSurface_spec
    (hcase : ¬ (owner = none ∧ size ≤ 8)) {surface : Surface} (hs : s.slotSurfaces.values id = some surface)
    (hmeets : max surface.params.addr addr < min surface.params.endAddr (addU32 addr size)) (removed : List SurfaceId) :
    ∃ s' removed', invalidateSurface addr size owner (s, removed) id = .ok (s', removed') ∧
      Invalidated addr (addU32 addr size) owner s s' ∧
      (removed' = removed ∨ (removed' = removed ++ [id] ∧ FullyInvalid s' id ∧ owner ≠ some id)) := by
  unfold invalidateSurface
  dsimp only
  by_cases hown : owner = some id
  · rw [if_pos hown]
    exact ⟨s, removed, rfl, Invalidated.refl _ _ _ s, Or.inl rfl⟩
  rw [if_neg hown, surface_ok hs, ok_bind, if_neg hcase]
  obtain ⟨fullyInvalid, hfull, hpoints⟩ := isFullyInvalid_markInvalid surface hmeets
  rw [hfull, ok_bind]
  have hvalues : (s.slotSurfaces.modify id fun _ =>
      surface.markInvalid (max surface.params.addr addr) (min surface.params.endAddr (addU32 addr size))).values =
      update s.slotSurfaces.values id
        (some (surface.markInvalid (max surface.params.addr addr) (min surface.params.endAddr (addU32 addr size)))) := by
    rw [SlotVector.modify_values, hs, Option.map_some]
  refine ⟨_, _, rfl, ⟨rfl, rfl, ?_, ?_⟩, ?_⟩
  · intro other surface' hs'
    show ∃ surface'', (s.slotSurfaces.modify id _).values other = some surface'' ∧ _
    rw [hvalues]
    by_cases hother : other = id
    · subst hother
      rw [hs, Option.some.injEq] at hs'
      subst hs'
      rw [update_self]
      refine ⟨_, rfl, rfl, rfl, ?_, ?_⟩
      · unfold Surface.markInvalid
        rw [IntervalSet.points_add]
        exact Set.subset_union_left
      · unfold Surface.markInvalid
        rw [IntervalSet.points_add]
        refine Set.union_subset_union_right _ ?_
        intro x hx
        have hx := IntervalSet.mem_between.mp hx
        exact ⟨by omega, by omega⟩
    · rw [update_of_ne hother]
      exact ⟨surface', hs', rfl, rfl, Set.Subset.rfl, Set.subset_union_left⟩
  · intro other hother
    have hne : other ≠ id := by
      rintro rfl
      exact hown hother
    show (s.slotSurfaces.modify id _).values other = _
    rw [hvalues, update_of_ne hne]
  · cases fullyInvalid with
    | false => exact Or.inl rfl
    | true =>
      refine Or.inr ⟨rfl, ?_, hown⟩
      intro surface' hs'
      have hs' : (s.slotSurfaces.modify id _).values id = some surface' := hs'
      rw [hvalues, update_self, Option.some.injEq] at hs'
      rw [← hs']
      exact hpoints rfl

private theorem invalidateSurfaces (hcase : ¬ (owner = none ∧ size ≤ 8)) (hall : ∀ id ∈ surfaces, ∃ surface, s.slotSurfaces.values id = some surface ∧
      max surface.params.addr addr < min surface.params.endAddr (addU32 addr size)) (removed : List SurfaceId) :
    ∃ s' added, surfaces.foldlM (invalidateSurface addr size owner) (s, removed) = .ok (s', removed ++ added) ∧
      Invalidated addr (addU32 addr size) owner s s' ∧ added.Sublist surfaces ∧
      ∀ id ∈ added, FullyInvalid s' id ∧ owner ≠ some id := by
  induction surfaces generalizing s removed with
  | nil => exact ⟨s, [], by rw [List.append_nil]; rfl, Invalidated.refl _ _ _ s, List.Sublist.refl _, by simp⟩
  | cons id surfaces ih =>
    obtain ⟨surface, hs, hmeets⟩ := hall id List.mem_cons_self
    obtain ⟨s₁, removed₁, hrun, hinv, hremoved⟩ := invalidateSurface_spec hcase hs hmeets removed
    obtain ⟨s', added, hrun', hinv', hsub, hfull⟩ := ih (s := s₁) (by
      intro other hother
      obtain ⟨surface', hs', hmeets'⟩ := hall other (List.mem_cons_of_mem _ hother)
      obtain ⟨surface'', hs'', hparams, -⟩ := hinv.surfaces other surface' hs'
      exact ⟨surface'', hs'', hparams ▸ hmeets'⟩) removed₁
    rcases hremoved with rfl | ⟨rfl, hfullid, hne⟩
    · refine ⟨s', added, ?_, hinv.trans hinv', hsub.cons id, hfull⟩
      rw [List.foldlM_cons, hrun, ok_bind, hrun']
    · refine ⟨s', id :: added, ?_, hinv.trans hinv', hsub.cons_cons id, ?_⟩
      · rw [List.foldlM_cons, hrun, ok_bind, hrun', List.append_assoc, List.singleton_append]
      · intro other hother
        rcases List.mem_cons.mp hother with rfl | hother
        · obtain ⟨surface₁, hs₁, -⟩ := hinv.surfaces other surface hs
          exact ⟨hfullid.mono ⟨surface₁, hs₁⟩ hinv', hne⟩
        · exact hfull other hother

theorem addU32_of_lt {a b : Nat} (h : a + b < 2 ^ 32) : addU32 a b = a + b := Nat.mod_eq_of_lt h

private theorem meets_of_overlaps {marks : Prop} (h : Kept marks s) {surface : Surface}
    (hs : s.slotSurfaces.values id = some surface) (hreg : surface.registered = true) (hpos : 0 < surface.params.size) (hsize : 0 < size) (hend : addr + size < 2 ^ 32) (hoverlaps : surface.overlaps addr size) :
    max surface.params.addr addr < min surface.params.endAddr (addU32 addr size) := by
  have hproper := (h.sound hs hreg).1
  unfold Surface.overlaps at hoverlaps
  rw [addU32_of_lt hend] at hoverlaps ⊢
  unfold SurfaceParams.Proper at hproper
  have hlt : surface.params.addr < surface.params.endAddr := by
    unfold SurfaceParams.endAddr addU32 at hoverlaps ⊢
    omega
  omega

private theorem markOwnerValid_spec (h : DirtyOk s) (hend : addr + size < 2 ^ 32)
    (howner : ∀ id, owner = some id → ∃ surface, s.slotSurfaces.values id = some surface ∧ surface.registered = true) :
    Outcome Benign (fun s' => Keeps (fun _ => False) s s' ∧ KeepsPages s s' ∧
      ∀ id, owner = some id → ∀ p, addr ≤ p → p < addr + size → Owns s' id p) (s.markOwnerValid addr size owner) := by
  cases owner with
  | none => exact ⟨h.keeps_self _, KeepsPages.refl s, by simp⟩
  | some id =>
    obtain ⟨surface, hs, hreg⟩ := howner id rfl
    rw [markOwnerValid, surface_ok hs, ok_bind]
    split_ifs with hcond
    · refine ⟨h.markValid _ id _ _, markValid_keeps s id _ _, ?_⟩
      intro other hother p hl hu
      cases hother
      obtain ⟨-, ⟨haddr, hupper⟩, -⟩ := hcond
      rw [addU32_of_lt hend] at hupper ⊢
      refine ⟨surface.markValid addr (addr + size), ?_, hreg, ?_, ?_, ?_⟩
      · unfold modifySurface
        rw [SlotVector.modify_values, update_self, hs, Option.map_some]
      · exact haddr.trans hl
      · exact Nat.lt_of_lt_of_le hu hupper
      · unfold Surface.markValid
        rw [IntervalSet.points_subtract]
        exact fun hmem => hmem.2 ⟨hl, hu⟩
    · show Benign _
      decide

private theorem get?_setOwner (hend : addr + size < 2 ^ 32) (owner : Option SurfaceId) (p : Nat) :
    (s.setOwner addr size owner).dirtyRegions.get? p =
      if addr ≤ p ∧ p < addr + size then owner else s.dirtyRegions.get? p := by
  cases owner with
  | none =>
    show (s.dirtyRegions.erase addr (addU32 addr size)).get? p = _
    rw [addU32_of_lt hend, IntervalMap.get?_erase]
  | some id =>
    show (s.dirtyRegions.set addr (addU32 addr size) id).get? p = _
    rw [addU32_of_lt hend, IntervalMap.get?_set]

private theorem setOwner_slotSurfaces (addr size : Nat) (owner : Option SurfaceId) :
    (s.setOwner addr size owner).slotSurfaces = s.slotSurfaces := by
  cases owner with
  | none => rfl
  | some id => rfl

private theorem setOwner_downloads (addr size : Nat) (owner : Option SurfaceId) :
    (s.setOwner addr size owner).downloads = s.downloads := by
  cases owner with
  | none => rfl
  | some id => rfl

private theorem DirtyOutside.setOwner (h : DirtyOutside (fun p => addr ≤ p ∧ p < addr + size) s)
    (hend : addr + size < 2 ^ 32) (owner : Option SurfaceId)
    (howner : ∀ id, owner = some id → ∀ p, addr ≤ p → p < addr + size → Owns s id p) :
    Keeps (fun p => addr ≤ p ∧ p < addr + size) s (s.setOwner addr size owner) := by
  have howns : ∀ id p, Owns s id p → Owns (s.setOwner addr size owner) id p := by
    intro id p howns
    refine howns.of_values ?_
    intro surface hs _
    rw [setOwner_slotSurfaces]
    exact hs
  refine ⟨?_, ⟨[], by rw [setOwner_downloads, List.append_nil]⟩, ?_⟩
  · intro p id hp _
    rw [get?_setOwner hend] at hp
    split_ifs at hp with hin
    · exact howns id p (howner id hp p hin.1 hin.2)
    · exact howns id p (h p id hp hin)
  · intro p id hp hin
    rw [get?_setOwner hend, if_neg hin]
    exact Or.inl hp

theorem DirtyOk.invalidateRegion (h : DirtyOk s) (hkept : Kept False s)
    (hend : addr + size < 2 ^ 32) (owner : Option SurfaceId)
    (howner : ∀ id, owner = some id → ∃ surface, s.slotSurfaces.values id = some surface ∧ surface.registered = true) :
    Outcome Benign (fun s' => Keeps (fun p => addr ≤ p ∧ p < addr + size) s s' ∧
      ∀ id, owner = some id → ∀ p, addr ≤ p → p < addr + size → s'.dirtyRegions.get? p = some id)
      (s.invalidateRegion addr size owner) := by
  unfold RasterizerCache.invalidateRegion
  by_cases hsize : size = 0
  · rw [if_pos hsize]
    exact ⟨h.keeps_self _, fun _ _ p hl hu => by omega⟩
  rw [if_neg hsize]
  refine Outcome.bind (markOwnerValid_spec h hend howner) ?_
  rintro s₁ ⟨hkeeps₁, hpages₁, howns₁⟩
  have hkept₁ := hpages₁.kept hkept
  have hloss₁ : Loss (fun p => addr ≤ p ∧ p < addr + size) s s₁ := hkeeps₁.loss.mono fun _ hfalse => hfalse.elim
  obtain ⟨surfaces, hsurfaces, hnodup, hall⟩ := hkept₁.surfacesInRegion addr size
  rw [hsurfaces, ok_bind]
  by_cases hcase : owner = none ∧ size ≤ 8
  · -- the surfaces are flushed and removed
    obtain ⟨rfl, hsmall⟩ := hcase
    obtain ⟨s₂, hrun, hflushed, hgone⟩ := flushSurfaces addr hsmall hkeeps₁.dirtyOk (fun id hid => by
      obtain ⟨surface, hs, -, -, hpos⟩ := hall id hid
      exact ⟨surface, hs, hpos⟩) []
    rw [hrun, ok_bind]
    have hdirty₂ : DirtyOk s₂ := hflushed.dirtyOutside hkeeps₁.dirtyOk
    have hout : DirtyOutside (fun p => addr ≤ p ∧ p < addr + size) s₂ := fun p id hp _ => hdirty₂.owns hp
    have hset := hout.setOwner hend none (by simp)
    have hpages₂ : KeepsPages s₁ s₂ := by
      have houtcome := invalidateSurfaces_excused addr size none surfaces (s₁, [])
      rw [hrun] at houtcome
      exact houtcome.1
    have hpages₃ := hpages₂.trans (setOwner_keeps s₂ addr size none)
    obtain ⟨s', hrun', hkeeps', -⟩ := hset.dirtyOk.unregisterSurfaces (hpages₃.kept hkept₁) hnodup
      (by
        intro id hid
        obtain ⟨surface, hs, hreg, -⟩ := hall id hid
        obtain ⟨surface', hs', -, hreg'⟩ := hpages₃.surface hs
        exact ⟨surface', hs', hreg'.trans hreg⟩)
      (by
        intro id hid p hp
        rw [get?_setOwner hend] at hp
        split_ifs at hp
        exact hgone id hid p hp)
      (fun p => addr ≤ p ∧ p < addr + size)
    refine Outcome.of_ok ⟨s', hrun', ⟨hkeeps'.dirtyOk, ?_⟩, by simp⟩
    have hloss₂ : Loss (fun p => addr ≤ p ∧ p < addr + size) s₁ s₂ := hflushed.loss.mono fun _ hfalse => hfalse.elim
    exact ((hloss₁.trans hloss₂).trans hset.loss).trans hkeeps'.loss
  · -- the surfaces lose the region, and those without valid data are removed
    obtain ⟨s₂, removed, hrun, hinv, hsub, hfull⟩ := invalidateSurfaces hcase (fun id hid => by
      obtain ⟨surface, hs, hreg, hoverlaps, hpos⟩ := hall id hid
      exact ⟨surface, hs, meets_of_overlaps hkept₁ hs hreg hpos (by omega) hend hoverlaps⟩) []
    rw [hrun, ok_bind]
    rw [addU32_of_lt hend] at hinv
    have hout : DirtyOutside (fun p => addr ≤ p ∧ p < addr + size) s₂ := by
      intro p id hp hin
      rw [hinv.dirtyRegions] at hp
      obtain ⟨surface, hs, hreg, haddr, hupper, hvalid⟩ := (hkeeps₁.dirtyOk.owns hp).surface
      obtain ⟨surface', hs', hparams, hreg', -, hpoints⟩ := hinv.surfaces id surface hs
      refine ⟨surface', hs', hreg'.trans hreg, hparams ▸ haddr, hparams ▸ hupper, ?_⟩
      intro hmem
      rcases hpoints hmem with hmem | hmem
      · exact hvalid hmem
      · exact hin hmem
    have howns₂ : ∀ id, owner = some id → ∀ p, addr ≤ p → p < addr + size → Owns s₂ id p := by
      intro id hid p hl hu
      refine (howns₁ id hid p hl hu).of_values ?_
      intro surface hs _
      rw [hinv.owner id hid]
      exact hs
    have hset := hout.setOwner hend owner howns₂
    have hpages₂ : KeepsPages s₁ s₂ := by
      have houtcome := invalidateSurfaces_excused addr size owner surfaces (s₁, [])
      rw [hrun] at houtcome
      exact houtcome.1
    have hpages₃ := hpages₂.trans (setOwner_keeps s₂ addr size owner)
    obtain ⟨s', hrun', hkeeps', hdirty'⟩ := hset.dirtyOk.unregisterSurfaces (hpages₃.kept hkept₁)
      (hnodup.sublist hsub)
      (by
        intro id hid
        obtain ⟨surface, hs, hreg, -⟩ := hall id (hsub.subset hid)
        obtain ⟨surface', hs', -, hreg'⟩ := hpages₃.surface hs
        exact ⟨surface', hs', hreg'.trans hreg⟩)
      (by
        intro id hid p hp
        obtain ⟨hfullid, hne⟩ := hfull id hid
        rw [get?_setOwner hend] at hp
        split_ifs at hp with hin
        · exact hne hp
        · obtain ⟨surface, hs, -, haddr, hupper, hvalid⟩ := (hout p id hp hin).surface
          exact hvalid (hfullid surface hs ⟨haddr, hupper⟩))
      (fun p => addr ≤ p ∧ p < addr + size)
    refine Outcome.of_ok ⟨s', hrun', ⟨hkeeps'.dirtyOk, ?_⟩, ?_⟩
    · have hloss₂ : Loss (fun p => addr ≤ p ∧ p < addr + size) s₁ s₂ := Loss.of_eq hinv.dirtyRegions hinv.downloads
      exact ((hloss₁.trans hloss₂).trans hset.loss).trans hkeeps'.loss
    · intro id hid p hl hu
      rw [hdirty', get?_setOwner hend, if_pos ⟨hl, hu⟩]
      exact hid

theorem DirtyOk.flushAll (h : DirtyOk s) (R : Nat → Prop) :
    ∃ s', s.flushRegion 0 0xFFFFFFFF none = .ok s' ∧ Keeps R s s' ∧ ∀ p, s'.dirtyRegions.get? p = none := by
  obtain ⟨s', hrun, hflushed, hgone⟩ := h.flushRegion 0 0xFFFFFFFF none
  refine ⟨s', hrun, ⟨hflushed.dirtyOutside h, hflushed.loss.mono fun _ hfalse => hfalse.elim⟩, ?_⟩
  intro p
  cases hp : s'.dirtyRegions.get? p with
  | none => rfl
  | some id =>
    obtain ⟨surface, -, -, -, hend, -⟩ := (h.owns (hflushed.less p id hp)).surface
    have hlt : p < addU32 0 0xFFFFFFFF := by
      unfold SurfaceParams.endAddr addU32 at hend
      unfold addU32
      omega
    exact absurd hp (hgone (by decide) p id (Nat.zero_le p) hlt (Or.inl rfl))

theorem keeps_of_clean (h : ∀ p, s.dirtyRegions.get? p = none)
    (h' : ∀ p, s'.dirtyRegions.get? p = none) (hlog : s'.downloads = s.downloads) : Keeps R s s' := by
  refine ⟨?_, ⟨[], by rw [hlog, List.append_nil]⟩, ?_⟩
  · intro p id hp
    rw [h'] at hp
    cases hp
  · intro p id hp
    rw [h] at hp
    cases hp

theorem DirtyOk.registerSurface (h : DirtyOk s) (hkept : Kept False s) {surface : Surface}
    (hs : s.slotSurfaces.values id = some surface) (hreg : surface.registered = false)
    (hsound : Sound False s surface.params) (hsent : id ∉ s.sentenced.map Prod.fst) (R : Nat → Prop) :
    ∃ s', s.registerSurface id = .ok s' ∧ Keeps R s s' ∧ Kept False s' ∧
      s'.slotSurfaces.values id = some (surface.setRegistered true) := by
  obtain ⟨s', hrun, hkept', hdirty, hlog, -, -, hvalues⟩ := hkept.registerSurface hs hreg hsound hsent
  refine ⟨s', hrun, h.keeps_of_values hdirty hlog ?_, hkept', by rw [hvalues, update_self]⟩
  intro other surface' hs' hreg'
  have hne : other ≠ id := by
    rintro rfl
    rw [hs, Option.some.injEq] at hs'
    rw [← hs', hreg] at hreg'
    cases hreg'
  rw [hvalues, update_of_ne hne]
  exact hs'

theorem Created.keeps (hc : Created False s params s' id) (h : DirtyOk s) (R : Nat → Prop) : Keeps R s s' := by
  refine h.keeps_of_values hc.dirtyRegions hc.downloads ?_
  intro other surface hs hreg
  have hne : other ≠ id := by
    rintro rfl
    have hunreg := registeredParams_eq_none_iff.mp hc.unregistered surface hs
    rw [hreg] at hunreg
    cases hunreg
  rw [hc.others other hne]
  exact hs

theorem DirtyOk.accelerateFill (h : DirtyOk s) (hkept : Kept False s) {startAddr endAddr : Nat}
    (hlt : startAddr < endAddr) (hend : endAddr < 2 ^ 32) (hsound : Sound False s (fillParams startAddr endAddr)) :
    Outcome Benign (fun s' => Keeps (fun p => startAddr ≤ p ∧ p < endAddr) s s' ∧
      ∃ id, ∀ p, startAddr ≤ p → p < endAddr → s'.dirtyRegions.get? p = some id)
      (s.accelerateFill startAddr endAddr) := by
  have hsize : startAddr + subU32 endAddr startAddr = endAddr := by
    unfold subU32
    omega
  have hcreated := hkept.insertSurface (fillParams startAddr endAddr) { params := fillParams startAddr endAddr } rfl fun hs => hs
  obtain ⟨surface, hs, hreg, hsound'⟩ := hcreated.surface
  have hkeeps₁ := hcreated.keeps h fun p => startAddr ≤ p ∧ p < endAddr
  obtain ⟨s₂, hrun, hkeeps₂, hkept₂, hvalues⟩ := hkeeps₁.dirtyOk.registerSurface hcreated.kept hs hreg
    (hsound' hsound) hcreated.notSentenced fun p => startAddr ≤ p ∧ p < endAddr
  unfold RasterizerCache.accelerateFill
  dsimp only
  rw [hrun, ok_bind]
  have hend' : startAddr + subU32 endAddr startAddr < 2 ^ 32 := by omega
  have hinv := hkeeps₂.dirtyOk.invalidateRegion hkept₂ hend' (some s.slotSurfaces.freeValueIndex) (by
    intro id hid
    cases hid
    exact ⟨_, hvalues, rfl⟩)
  rw [hsize] at hinv
  refine Outcome.mono hinv ?_
  rintro s' ⟨hkeeps', howned⟩
  exact ⟨(hkeeps₁.trans hkeeps₂).trans hkeeps', _, howned _ rfl⟩

theorem DirtyOk.createRegistered (h : DirtyOk s) (hkept : Kept False s)
    (hsound : Sound False s params) (R : Nat → Prop) :
    ∃ s' id, s.createRegistered params = .ok (s', id) ∧ Keeps R s s' ∧ Kept False s' ∧
      s'.pluginFbAddress = s.pluginFbAddress := by
  obtain ⟨s', id, hrun, hkept', hdirty, hlog, hplugin, -, hvalues⟩ := hkept.createRegistered hsound
  exact ⟨s', id, hrun, h.keeps_of_values hdirty hlog hvalues, hkept', hplugin⟩

theorem DirtyOk.getSurface (h : DirtyOk s) (hkept : Kept False s)
    (hsound : Sound False s params) (scaleMatch : ScaleMatch) (loadIfCreate : Bool) (validations : List Validation)
    (R : Nat → Prop) : Outcome Benign (Keeps R s) (s.getSurface params scaleMatch loadIfCreate validations) := by
  unfold RasterizerCache.getSurface
  by_cases hzero : params.addr = 0 ∨ mulU32 params.height params.width = 0
  · rw [if_pos hzero]
    exact h.keeps_self R
  rw [if_neg hzero]
  by_cases hshape : params.width ≠ params.stride ∨
      (params.isTiled = true ∧ ¬ (params.width % 8 = 0 ∧ params.height % 8 = 0))
  · rw [if_pos hshape]
    show Benign _
    decide
  rw [if_neg hshape]
  obtain ⟨found, hfound, -⟩ := hkept.findMatch params scaleMatch fun surface => surface.params.exactMatch params
  rw [hfound, ok_bind]
  refine Outcome.bind (P := fun result => Keeps R s result.1) ?_ ?_
  · cases found with
    | some id => exact h.keeps_self R
    | none =>
      obtain ⟨s', id, hrun, hkeeps, -⟩ := h.createRegistered hkept hsound R
      exact Outcome.of_ok ⟨(s', id), hrun, hkeeps⟩
  · rintro ⟨s₁, id⟩ hkeeps
    split_ifs
    · refine Outcome.mono (hkeeps.dirtyOk.validateSurface R id _ _ _) ?_
      intro s₂ hkeeps'
      exact hkeeps.trans hkeeps'
    · exact hkeeps

theorem updateParams_benign (params : SurfaceParams) : Outcome Benign (fun _ => True) params.updateParams := by
  refine Outcome.intro (fun _ _ => trivial) ?_
  intro fault hfault
  have hshape : fault = .surfaceShape := by
    unfold SurfaceParams.updateParams at hfault
    generalize (if params.stride = 0 then params.width else params.stride) = stride at hfault
    split at hfault
    · cases hfault
      rfl
    · by_cases hlevels : params.levels ≠ 1
      · rw [if_pos hlevels] at hfault
        split_ifs at hfault
        cases hfault
        rfl
      · rw [if_neg hlevels] at hfault
        cases hfault
  rw [hshape]
  decide

theorem alignedParams_benign (params : SurfaceParams) : Outcome Benign (fun _ => True) (alignedParams params) := by
  unfold alignedParams
  split_ifs
  · exact updateParams_benign _
  · trivial

theorem DirtyOk.getSurfaceSubRect (h : DirtyOk s) (hkept : Kept False s)
    (hsound : ∀ newParams, subRectParams params = .ok newParams → Sound False s newParams) (scaleMatch : ScaleMatch)
    (loadIfCreate : Bool) (canSubRect : Surface → Bool) (validations : List Validation) (R : Nat → Prop) :
    Outcome Benign (Keeps R s) (s.getSurfaceSubRect params scaleMatch loadIfCreate canSubRect validations) := by
  unfold RasterizerCache.getSurfaceSubRect
  split_ifs
  · exact h.keeps_self R
  obtain ⟨found, hfound, -⟩ := hkept.findMatch params scaleMatch canSubRect
  rw [hfound, ok_bind]
  obtain ⟨⟨s₁, found₁⟩, hrun, hkept₁, hdirty, hlog, hplugin, hvalues⟩ :=
    hkept.subRectOfScale params scaleMatch canSubRect found
  rw [hrun, ok_bind]
  have hkeeps : Keeps R s s₁ := h.keeps_of_values hdirty hlog hvalues
  cases found₁ with
  | none =>
    refine Outcome.bind (P := fun newParams => Sound False s newParams) ?_ ?_
    · refine Outcome.intro hsound ?_
      intro fault hfault
      have houtcome : Outcome Benign (fun _ => True) (subRectParams params) :=
        Outcome.bind (alignedParams_benign params) fun _ _ => updateParams_benign _
      rw [hfault] at houtcome
      exact houtcome
    · intro newParams hnew
      refine Outcome.mono (hkeeps.dirtyOk.getSurface hkept₁ (Sound.congr rfl rfl hplugin hnew) _ _ _ R) ?_
      intro s₂ hkeeps'
      exact hkeeps.trans hkeeps'
  | some id =>
    refine Outcome.bind (alignedParams_benign params) ?_
    intro aligned _
    split_ifs
    · refine Outcome.mono (hkeeps.dirtyOk.validateSurface R id _ _ _) ?_
      intro s₂ hkeeps'
      exact hkeeps.trans hkeeps'
    · exact hkeeps

theorem DirtyOk.unregisterSurface (h : DirtyOk s) (hkept : Kept False s)
    (hnone : ∀ p, s.dirtyRegions.get? p ≠ some id) (R : Nat → Prop) :
    Outcome Benign (Keeps R s) (s.unregisterSurface id) := by
  cases hs : s.slotSurfaces.values id with
  | none =>
    unfold RasterizerCache.unregisterSurface RasterizerCache.surface
    rw [hs]
    show Benign _
    decide
  | some surface =>
    cases hreg : surface.registered with
    | false =>
      unfold RasterizerCache.unregisterSurface
      rw [surface_ok hs, ok_bind, hreg, if_neg (by decide)]
      show Benign _
      decide
    | true =>
      obtain ⟨s', hrun, -, hdirty, hlog, -, hothers, -⟩ := hkept.unregisterSurface hs hreg
      refine Outcome.of_ok ⟨s', hrun, h.mono ?_ ?_, Loss.of_eq hdirty hlog⟩
      · intro p other hp _
        rw [hdirty] at hp
        exact hp
      · intro p other hp _ howns
        refine howns.of_values ?_
        intro surface' hs' _
        have hne : other ≠ id := by
          rintro rfl
          exact hnone p hp
        rw [hothers other hne]
        exact hs'

theorem DirtyOk.unregisterAll (h : DirtyOk s) (hkept : Kept False s) (pages : List Nat) (threshold : Nat)
    (R : Nat → Prop) : Outcome Benign (Keeps R s) (s.unregisterAll pages threshold) := by
  unfold RasterizerCache.unregisterAll RasterizerCache.flushAll
  have houtcome := flushRegion_excused s 0 0xFFFFFFFF none
  obtain ⟨s₁, hrun₁, hkeeps₁, hclean₁⟩ := h.flushAll R
  rw [hrun₁] at houtcome
  rw [hrun₁, ok_bind]
  have hkept₁ : Kept False s₁ := KeepsPages.kept houtcome hkept
  obtain ⟨s₂, hrun₂, hkept₂, hdirty₂, hlog₂, -⟩ := hkept₁.unregisterPages pages
  rw [hrun₂, ok_bind]
  have htick : Kept False { s₂ with frameTick := (s₂.frameTick + threshold) % 2 ^ 64 } :=
    KeepsPages.kept (s := s₂) ⟨fun _ => rfl, rfl, rfl, rfl, rfl, rfl⟩ hkept₂
  obtain ⟨s', hrun', -, hdirty', hlog', -⟩ := htick.runGarbageCollector threshold
  refine Outcome.of_ok ⟨s', hrun', hkeeps₁.trans (keeps_of_clean hclean₁ ?_ (hlog'.trans hlog₂))⟩
  intro p
  rw [hdirty']
  show s₂.dirtyRegions.get? p = none
  rw [hdirty₂]
  exact hclean₁ p

/-- One operation keeps the owners valid, loses nothing and records what is written. -/
theorem DirtyOk.exec (h : DirtyOk s) (hkept : Kept False s) {op : Op} (hop : OpOk False s op) (howner : OwnerOk s op) :
    Outcome Benign (fun s' => Keeps (Overwrites op) s s' ∧ Records s' op) (s.exec op) := by
  cases op with
  | createSurface params => exact ⟨(hkept.createSurface params).keeps h _, trivial⟩
  | registerSurface id =>
    obtain ⟨hsent, hsound⟩ := hop
    show Outcome Benign _ (s.registerSurface id)
    cases hs : s.slotSurfaces.values id with
    | none =>
      unfold RasterizerCache.registerSurface RasterizerCache.surface
      rw [hs]
      show Benign _
      decide
    | some surface =>
      cases hreg : surface.registered with
      | true =>
        unfold RasterizerCache.registerSurface
        rw [surface_ok hs, ok_bind, if_pos hreg]
        show Benign _
        decide
      | false =>
        obtain ⟨s', hrun, hkeeps, -⟩ := h.registerSurface hkept hs hreg (hsound surface hs) hsent
          (Overwrites (.registerSurface id))
        exact Outcome.of_ok ⟨s', hrun, hkeeps, trivial⟩
  | unregisterSurface id =>
    exact Outcome.mono (h.unregisterSurface hkept howner _) fun _ hkeeps => ⟨hkeeps, trivial⟩
  | flushRegion addr size flushSurface =>
    obtain ⟨s', hrun, hkeeps⟩ := h.flush (Overwrites (.flushRegion addr size flushSurface)) addr size flushSurface
    exact Outcome.of_ok ⟨s', hrun, hkeeps, trivial⟩
  | invalidateRegion addr size owner =>
    obtain ⟨hend, hreg⟩ := howner
    refine Outcome.mono (h.invalidateRegion hkept hend owner hreg) ?_
    rintro s' ⟨hkeeps, howned⟩
    refine ⟨hkeeps, ?_⟩
    cases owner with
    | none => trivial
    | some id => exact howned id rfl
  | accelerateFill startAddr endAddr => exact h.accelerateFill hkept howner.1 howner.2 hop
  | getSurface params scaleMatch loadIfCreate validations =>
    exact Outcome.mono (h.getSurface hkept hop scaleMatch loadIfCreate validations _) fun _ hkeeps => ⟨hkeeps, trivial⟩
  | getSurfaceSubRect params scaleMatch loadIfCreate canSubRect validations =>
    exact Outcome.mono (h.getSurfaceSubRect hkept hop scaleMatch loadIfCreate canSubRect validations _)
      fun _ hkeeps => ⟨hkeeps, trivial⟩
  | validateSurface id addr size validations =>
    exact Outcome.mono (h.validateSurface _ id addr size validations) fun _ hkeeps => ⟨hkeeps, trivial⟩
  | unregisterAll pages threshold =>
    exact Outcome.mono (h.unregisterAll hkept pages threshold _) fun _ hkeeps => ⟨hkeeps, trivial⟩
  | clearAll flush =>
    have hflush : flush = true := howner
    subst hflush
    obtain ⟨s₁, hrun, hkeeps, hclean⟩ := h.flushAll (Overwrites (.clearAll true))
    show Outcome Benign _ (s.flushRegion 0 0xFFFFFFFF none >>= fun s => .ok s.clear)
    rw [hrun, ok_bind]
    exact ⟨hkeeps.trans (keeps_of_clean hclean (fun _ => rfl) rfl), trivial⟩
  | runGarbageCollector threshold =>
    obtain ⟨s', hrun, -, hdirty, hlog, hvalues⟩ := hkept.runGarbageCollector threshold
    exact Outcome.of_ok ⟨s', hrun, h.keeps_of_values hdirty hlog hvalues, trivial⟩

theorem OwnedRun.kept (h : OwnedRun s) : Kept False s := by
  induction h with
  | init pluginFb => exact create_kept fun hfalse => hfalse.elim
  | step op _ hop _ hexec ih =>
    have houtcome := ih.exec hop
    rw [hexec] at houtcome
    exact houtcome

theorem OwnedRun.dirtyOk (h : OwnedRun s) : DirtyOk s := by
  induction h with
  | init pluginFb =>
    intro p id hp
    cases hp
  | step op hrun hop howner hexec ih =>
    have houtcome := ih.exec hrun.kept hop howner
    rw [hexec] at houtcome
    exact houtcome.1.dirtyOk

def colorParams : SurfaceParams :=
  { addr := 0x18000000, size := 256, width := 8, height := 8, stride := 8, isTiled := true, pixelFormat := .rgba8,
    type := .color }

def depthParams : SurfaceParams :=
  { addr := 0x18000000, size := 256, width := 8, height := 8, stride := 8, isTiled := true, pixelFormat := .d24s8,
    type := .depthStencil }

/-- Color and depth surfaces, with the two calls of the destructor of `FramebufferHelper`. -/
def sharedFramebuffer : Except CacheFault RasterizerCache := do
  let s ← (create 0).exec (.getSurface colorParams .exact false [])
  let s ← s.exec (.getSurface depthParams .exact false [])
  let s ← s.exec (.invalidateRegion 0x18000000 256 (some 3))
  s.exec (.invalidateRegion 0x18000000 256 (some 2))

end RasterizerCache

end SweepDSEmu.VideoCore
