import SweepDSEmu.VideoCore.CacheBookkeeping

/-!
# Runs of the rasterizer cache

The operations keep the bookkeeping.  Each is described by what it does to the registered surfaces; the results about
single surfaces are in `CacheBookkeeping`.
-/

namespace SweepDSEmu.VideoCore

open Function

namespace RasterizerCache

variable {marks : Prop} {s s' : RasterizerCache} {id : SurfaceId}

def Excused (fault : CacheFault) : Prop :=
  fault ∉ [.unregisteredPage, .unregisteredSurface, .negativeCount, .neverReturns]

instance : DecidablePred Excused := fun _ => inferInstanceAs (Decidable (_ ∉ _))

theorem surface_outcome (s : RasterizerCache) (id : SurfaceId) :
    Outcome (fun fault => fault = .freedSurface) (fun surface => s.slotSurfaces.values id = some surface)
      (s.surface id) := by
  unfold RasterizerCache.surface
  cases hs : s.slotSurfaces.values id with
  | none => rfl
  | some surface => rfl

theorem surface_ok {surface : Surface} (hs : s.slotSurfaces.values id = some surface) :
    s.surface id = .ok surface := by
  unfold RasterizerCache.surface
  rw [hs]

theorem surface_excused (s : RasterizerCache) (id : SurfaceId) :
    Outcome Excused (fun surface => s.slotSurfaces.values id = some surface) (s.surface id) := by
  refine Outcome.intro ?_ ?_
  · intro surface hs
    have houtcome := surface_outcome s id
    rw [hs] at houtcome
    exact houtcome
  · intro fault hfault
    have houtcome := surface_outcome s id
    rw [hfault] at houtcome
    rw [houtcome]
    decide

theorem Kept.surfacesInRegion (h : Kept marks s) (addr size : Nat) :
    ∃ surfaces, s.surfacesInRegion addr size = .ok surfaces ∧ surfaces.Nodup ∧
      ∀ id ∈ surfaces, ∃ surface, s.slotSurfaces.values id = some surface ∧ surface.registered = true ∧
        surface.overlaps addr size ∧ 0 < surface.params.size := by
  have hlisted : ∀ page, ∀ id ∈ (s.pageTable page).getD [], ∃ surface, s.slotSurfaces.values id = some surface ∧
      surface.registered = true ∧ 0 < surface.params.size := by
    intro page id hid
    obtain ⟨params, hparams, hmeets⟩ := registeredMeets_iff.mp (((h.tracked.lists page).2 id).mp hid)
    obtain ⟨surface, hs, hreg, rfl⟩ := registeredParams_eq_some.mp hparams
    refine ⟨surface, hs, hreg, ?_⟩
    unfold SurfaceParams.Meets at hmeets
    omega
  refine Outcome.exists_ok ?_
  refine Outcome.foldlM (P := fun surfaces : List SurfaceId => surfaces.Nodup ∧ ∀ id ∈ surfaces, ∃ surface,
    s.slotSurfaces.values id = some surface ∧ surface.registered = true ∧ surface.overlaps addr size ∧
      0 < surface.params.size) (by simp) ?_
  intro surfaces page _ hsurfaces
  refine Outcome.foldlM hsurfaces ?_
  rintro surfaces id hid ⟨hnodup, hall⟩
  obtain ⟨surface, hs, hreg, hsize⟩ := hlisted page id hid
  unfold pickSurface
  rw [surface_ok hs, ok_bind]
  split_ifs with hmem hoverlaps
  · exact ⟨hnodup, hall⟩
  · refine ⟨List.nodup_append'.mpr ⟨hnodup, List.nodup_singleton _, by simpa using hmem⟩, ?_⟩
    intro other hother
    rcases List.mem_append.mp hother with hother | hother
    · exact hall other hother
    · rw [List.mem_singleton.mp hother]
      exact ⟨surface, hs, hreg, hoverlaps, hsize⟩
  · exact ⟨hnodup, hall⟩

theorem Kept.findMatch (h : Kept marks s) (params : SurfaceParams) (scaleMatch : ScaleMatch)
    (matched : Surface → Bool) :
    ∃ found, s.findMatch params scaleMatch matched = .ok found ∧
      ∀ id, found = some id → ∃ surface, s.slotSurfaces.values id = some surface ∧ surface.registered = true := by
  obtain ⟨surfaces, hsurfaces, -, hall⟩ := h.surfacesInRegion params.addr params.size
  refine Outcome.exists_ok ?_
  unfold RasterizerCache.findMatch
  rw [hsurfaces, ok_bind]
  refine Outcome.bind (P := fun best : BestMatch => ∀ id, best.id = some id → ∃ surface,
    s.slotSurfaces.values id = some surface ∧ surface.registered = true) ?_ fun best hbest => hbest
  refine Outcome.foldlM (by simp) ?_
  intro best id hid hbest
  obtain ⟨surface, hs, hreg, -⟩ := hall id hid
  rw [surface_ok hs, ok_bind]
  intro other hother
  unfold considerMatch at hother
  have hcases : best.id = some other ∨ id = other := by
    dsimp only at hother
    split_ifs at hother
    all_goals first | exact Or.inl hother | exact Or.inr (Option.some.inj hother)
  rcases hcases with hother | rfl
  · exact hbest other hother
  · exact ⟨surface, hs, hreg⟩

theorem Sound.congr {params other : SurfaceParams} (haddr : other.addr = params.addr)
    (hsize : other.size = params.size) (hplugin : s'.pluginFbAddress = s.pluginFbAddress)
    (h : Sound marks s params) : Sound marks s' other := by
  unfold Sound SurfaceParams.Proper SurfaceParams.OnMemory SurfaceParams.Meets at *
  rw [haddr, hsize, hplugin]
  exact h

theorem prepare_params (params : SurfaceParams) (surface : Surface) :
    (surface.prepare params).params.addr = surface.params.addr ∧
      (surface.prepare params).params.size = surface.params.size ∧
      (surface.prepare params).registered = surface.registered := by
  unfold Surface.prepare Surface.markInvalid
  split_ifs
  · exact ⟨rfl, rfl, rfl⟩
  · exact ⟨rfl, rfl, rfl⟩

/-- What `CreateSurface` returns: a surface that is neither registered nor sentenced. -/
structure Created (marks : Prop) (s : RasterizerCache) (params : SurfaceParams) (s' : RasterizerCache)
    (id : SurfaceId) : Prop where
  kept : Kept marks s'
  surface : ∃ surface, s'.slotSurfaces.values id = some surface ∧ surface.registered = false ∧
    (Sound marks s params → Sound marks s' surface.params)
  notSentenced : id ∉ s'.sentenced.map Prod.fst
  unregistered : s.registeredParams id = none
  others : ∀ other ≠ id, s'.slotSurfaces.values other = s.slotSurfaces.values other
  dirtyRegions : s'.dirtyRegions = s.dirtyRegions
  downloads : s'.downloads = s.downloads
  pluginFbAddress : s'.pluginFbAddress = s.pluginFbAddress

theorem Kept.insertSurface (h : Kept marks s) (params : SurfaceParams) (surface : Surface)
    (hreg : surface.registered = false) (hsound : Sound marks s params → Sound marks s surface.params) :
    Created marks s params { s with slotSurfaces := s.slotSurfaces.insert surface } s.slotSurfaces.freeValueIndex := by
  have hnone : s.registeredParams s.slotSurfaces.freeValueIndex = none := by
    unfold registeredParams
    rw [s.slotSurfaces.values_freeValueIndex]
  have hnot : s.slotSurfaces.freeValueIndex ∉ s.sentenced.map Prod.fst := by
    intro hmem
    obtain ⟨other, hother, -⟩ := h.sentenced hmem
    rw [s.slotSurfaces.values_freeValueIndex] at hother
    cases hother
  have hothers : ∀ other ≠ s.slotSurfaces.freeValueIndex,
      (s.slotSurfaces.insert surface).values other = s.slotSurfaces.values other := by
    intro other hother
    rw [SlotVector.insert_values, update_of_ne hother]
  refine ⟨?_, ⟨surface, ?_, hreg, hsound⟩, hnot, hnone, hothers, rfl, rfl, rfl⟩
  · refine h.ofSlots ?_ rfl rfl rfl rfl h.tracked.sentencedNodup ?_
    · intro other
      rw [registeredParams_update (s := s) (SlotVector.insert_values _ _)]
      by_cases hother : other = s.slotSurfaces.freeValueIndex
      · rw [if_pos hother, hother, hnone]
        simp [hreg]
      · rw [if_neg hother]
    · intro other hmem
      have hne : other ≠ s.slotSurfaces.freeValueIndex := by
        rintro rfl
        exact hnot hmem
      show ∃ surface', (s.slotSurfaces.insert surface).values other = some surface' ∧ _
      rw [hothers other hne]
      exact h.sentenced hmem
  · show (s.slotSurfaces.insert surface).values _ = _
    rw [SlotVector.insert_values, update_self]

private theorem eraseP_of_find? {α : Type} {p : α → Bool} {l : List α} {a : α} (h : l.find? p = some a) :
    ∃ before after, l = before ++ a :: after ∧ l.eraseP p = before ++ after := by
  obtain ⟨ha, before, after, hsplit, hbefore⟩ := List.find?_eq_some_iff_append.mp h
  refine ⟨before, after, hsplit, ?_⟩
  rw [hsplit, List.eraseP_append_right _ (by simpa using hbefore), List.eraseP_cons_of_pos ha]

theorem Kept.createSurface (h : Kept marks s) (params : SurfaceParams) :
    Created marks s params (s.createSurface params).1 (s.createSurface params).2 := by
  unfold RasterizerCache.createSurface
  dsimp only
  split
  · rename_i entry hfind
    -- the first sentenced surface with these parameters is taken out of the list
    obtain ⟨before, after, hsplit, herase⟩ := eraseP_of_find? hfind
    have hmem : entry.1 ∈ s.sentenced.map Prod.fst := List.mem_map_of_mem (List.mem_of_find?_eq_some hfind)
    obtain ⟨surface, hs, hreg, hsound⟩ := h.sentenced hmem
    have hnodup := h.tracked.sentencedNodup
    rw [hsplit, List.map_append, List.map_cons] at hnodup
    have hperm := List.nodup_middle.mp hnodup
    obtain ⟨hnot, hnodup'⟩ := List.nodup_cons.mp hperm
    rw [← List.map_append, ← herase] at hnot hnodup'
    have hvalues : (s.slotSurfaces.modify entry.1 (Surface.prepare params)).values =
        update s.slotSurfaces.values entry.1 (some (surface.prepare params)) := by
      rw [SlotVector.modify_values, hs, Option.map_some]
    obtain ⟨haddr, hsize, hreg'⟩ := prepare_params params surface
    have hnone : s.registeredParams entry.1 = none := by
      refine registeredParams_eq_none_iff.mpr ?_
      intro other hother
      rw [hs, Option.some.injEq] at hother
      rw [← hother, hreg]
    refine ⟨?_, ⟨surface.prepare params, ?_, hreg'.trans hreg, ?_⟩, hnot, hnone, ?_, rfl, rfl, rfl⟩
    · refine h.ofSlots ?_ rfl rfl rfl rfl hnodup' ?_
      · intro other
        rw [registeredParams_update (s := s) hvalues]
        by_cases hother : other = entry.1
        · rw [if_pos hother, hother, hnone]
          simp [hreg', hreg]
        · rw [if_neg hother]
      · intro other hother
        have hne : other ≠ entry.1 := by
          rintro rfl
          exact hnot hother
        show ∃ surface', (s.slotSurfaces.modify entry.1 (Surface.prepare params)).values other = some surface' ∧ _
        rw [hvalues, update_of_ne hne]
        refine h.sentenced ?_
        rw [List.mem_map] at hother ⊢
        obtain ⟨e, he, heq⟩ := hother
        exact ⟨e, List.mem_of_mem_eraseP he, heq⟩
    · show (s.slotSurfaces.modify entry.1 (Surface.prepare params)).values entry.1 = _
      rw [hvalues, update_self]
    · intro _
      exact Sound.congr haddr hsize rfl hsound
    · intro other hother
      show (s.slotSurfaces.modify entry.1 (Surface.prepare params)).values other = _
      rw [hvalues, update_of_ne hother]
  · refine h.insertSurface params _ ?_ ?_
    · exact (prepare_params params { params := params }).2.2
    · obtain ⟨haddr, hsize, -⟩ := prepare_params params { params := params }
      exact Sound.congr haddr hsize rfl

/-- `CreateSurface` and `RegisterSurface`, as `GetSurface` calls them. -/
theorem Kept.createRegistered (h : Kept marks s) {params : SurfaceParams} (hsound : Sound marks s params) :
    ∃ s' id, s.createRegistered params = .ok (s', id) ∧ Kept marks s' ∧ s'.dirtyRegions = s.dirtyRegions ∧
      s'.downloads = s.downloads ∧ s'.pluginFbAddress = s.pluginFbAddress ∧
      (∃ surface, s'.slotSurfaces.values id = some surface ∧ surface.registered = true) ∧
      ∀ other surface, s.slotSurfaces.values other = some surface → surface.registered = true →
        s'.slotSurfaces.values other = some surface := by
  have hcreated := h.createSurface params
  obtain ⟨surface, hs, hreg, hsound'⟩ := hcreated.surface
  obtain ⟨s', hrun, hkept, hdirty, hdownloads, -, hplugin, hvalues⟩ :=
    hcreated.kept.registerSurface hs hreg (hsound' hsound) hcreated.notSentenced
  refine ⟨s', (s.createSurface params).2, ?_, hkept, hdirty.trans hcreated.dirtyRegions,
    hdownloads.trans hcreated.downloads, hplugin.trans hcreated.pluginFbAddress, ?_, ?_⟩
  · unfold RasterizerCache.createRegistered
    dsimp only
    rw [hrun, ok_bind]
  · exact ⟨surface.setRegistered true, by rw [hvalues, update_self], rfl⟩
  · intro other surface' hs' hreg'
    have hne : other ≠ (s.createSurface params).2 := by
      rintro rfl
      have hunreg := registeredParams_eq_none_iff.mp hcreated.unregistered surface' hs'
      rw [hreg'] at hunreg
      cases hunreg
    rw [hvalues, update_of_ne hne, hcreated.others other hne]
    exact hs'

theorem flushRegion_excused (s : RasterizerCache) (addr size : Nat) (flushSurface : Option SurfaceId) :
    Outcome Excused (KeepsPages s) (s.flushRegion addr size flushSurface) := by
  unfold flushRegion
  split_ifs
  · exact KeepsPages.refl s
  · refine Outcome.bind (P := fun _ => True) ?_ ?_
    · refine Outcome.intro (fun _ _ => trivial) ?_
      intro fault hfault
      obtain ⟨segment, -, hsegment⟩ := mapM_error hfault
      have houtcome : Outcome Excused (fun _ => True) (s.flushSegment addr (addU32 addr size) size segment) := by
        refine Outcome.bind (surface_excused s segment.value) ?_
        intro surface _
        split_ifs
        · trivial
        · show Excused _
          decide
      rw [hsegment] at houtcome
      exact houtcome
    · intro flushed _
      exact ⟨fun _ => rfl, rfl, rfl, rfl, rfl, rfl⟩

theorem markValid_keeps (s : RasterizerCache) (id : SurfaceId) (l u : Nat) :
    KeepsPages s (s.modifySurface id (Surface.markValid l u)) :=
  KeepsPages.modifySurface s id fun _ _ => ⟨rfl, rfl⟩

theorem validateSurface_excused (s : RasterizerCache) (id : SurfaceId) (addr size : Nat)
    (validations : List Validation) : Outcome Excused (KeepsPages s) (s.validateSurface id addr size validations) := by
  unfold validateSurface
  split_ifs
  · exact KeepsPages.refl s
  · refine Outcome.bind (surface_excused s id) ?_
    intro surface _
    split_ifs
    · exact KeepsPages.refl s
    · show Excused _
      decide
    · exact KeepsPages.refl s
    · refine Outcome.foldlM (KeepsPages.refl s) ?_
      intro s₁ validation _ hkeeps
      cases validation with
      | copied l u => exact hkeeps.trans (markValid_keeps s₁ id l u)
      | uploaded addr size =>
        refine Outcome.bind (flushRegion_excused s₁ addr size none) ?_
        intro s₂ hkeeps'
        exact (hkeeps.trans hkeeps').trans (markValid_keeps s₂ id _ _)

theorem Kept.unregisterSurfaces (h : Kept marks s) {surfaces : List SurfaceId} (hnodup : surfaces.Nodup)
    (hall : ∀ id ∈ surfaces, ∃ surface, s.slotSurfaces.values id = some surface ∧ surface.registered = true) :
    ∃ s', surfaces.foldlM RasterizerCache.unregisterSurface s = .ok s' ∧ Kept marks s' ∧
      s'.dirtyRegions = s.dirtyRegions ∧ s'.downloads = s.downloads ∧
      ∀ other ∉ surfaces, s'.slotSurfaces.values other = s.slotSurfaces.values other := by
  induction surfaces generalizing s with
  | nil => exact ⟨s, rfl, h, rfl, rfl, fun _ _ => rfl⟩
  | cons id surfaces ih =>
    obtain ⟨hid, hnodup⟩ := List.nodup_cons.mp hnodup
    obtain ⟨surface, hs, hreg⟩ := hall id List.mem_cons_self
    obtain ⟨s₁, hrun, hkept, hdirty, hdownloads, -, hothers, -⟩ := h.unregisterSurface hs hreg
    obtain ⟨s', hrun', hkept', hdirty', hdownloads', hothers'⟩ := ih hkept hnodup (by
      intro other hother
      have hne : other ≠ id := by
        rintro rfl
        exact hid hother
      rw [hothers other hne]
      exact hall other (List.mem_cons_of_mem _ hother))
    refine ⟨s', ?_, hkept', hdirty'.trans hdirty, hdownloads'.trans hdownloads, ?_⟩
    · rw [List.foldlM_cons, hrun, ok_bind]
      exact hrun'
    · intro other hother
      rw [List.mem_cons, not_or] at hother
      rw [hothers' other hother.2, hothers other hother.1]

def KeepsRegistered (s s' : RasterizerCache) : Prop :=
  ∀ id surface, s'.slotSurfaces.values id = some surface → surface.registered = true →
    s.slotSurfaces.values id = some surface

theorem Kept.unregisterPageSurfaces (h : Kept marks s) (page : Nat) {fuel : Nat}
    (hfuel : ((s.pageTable page).getD []).length ≤ fuel) :
    ∃ s', RasterizerCache.unregisterPageSurfaces page fuel s = .ok s' ∧ Kept marks s' ∧
      s'.dirtyRegions = s.dirtyRegions ∧ s'.downloads = s.downloads ∧ KeepsRegistered s s' := by
  induction fuel generalizing s with
  | zero =>
    have hnil : (s.pageTable page).getD [] = [] := List.length_eq_zero_iff.mp (by omega)
    refine ⟨s, ?_, h, rfl, rfl, fun _ _ hs _ => hs⟩
    unfold RasterizerCache.unregisterPageSurfaces
    rw [hnil]
    rfl
  | succ fuel ih =>
    unfold RasterizerCache.unregisterPageSurfaces
    cases hlast : ((s.pageTable page).getD []).getLast? with
    | none => exact ⟨s, rfl, h, rfl, rfl, fun _ _ hs _ => hs⟩
    | some id =>
      have hmem : id ∈ (s.pageTable page).getD [] := List.mem_of_getLast? hlast
      obtain ⟨params, hparams, -⟩ := registeredMeets_iff.mp (((h.tracked.lists page).2 id).mp hmem)
      obtain ⟨surface, hs, hreg, -⟩ := registeredParams_eq_some.mp hparams
      obtain ⟨s₁, hrun, hkept, hdirty, hdownloads, -, hothers, hnone, hlists⟩ := h.unregisterSurface hs hreg
      obtain ⟨s', hrun', hkept', hdirty', hdownloads', hregistered⟩ := ih hkept (by
        rw [hlists, List.length_erase_of_mem hmem]
        omega)
      refine ⟨s', ?_, hkept', hdirty'.trans hdirty, hdownloads'.trans hdownloads, ?_⟩
      · dsimp only
        rw [hrun, ok_bind]
        exact hrun'
      · intro other surface' hs' hreg'
        have hmiddle := hregistered other surface' hs' hreg'
        have hne : other ≠ id := by
          rintro rfl
          have hunreg := registeredParams_eq_none_iff.mp hnone surface' hmiddle
          rw [hreg'] at hunreg
          cases hunreg
        rw [← hothers other hne]
        exact hmiddle

theorem Kept.collect (h : Kept marks s) {threshold : Nat} {entries : List (SurfaceId × Nat)}
    (hentries : ∀ entry ∈ entries, entry ∈ s.sentenced) (hnodup : (entries.map Prod.fst).Nodup) :
    ∃ s', RasterizerCache.collect threshold entries s = .ok s' ∧ Kept marks s' ∧ s'.dirtyRegions = s.dirtyRegions ∧
      s'.downloads = s.downloads ∧
      ∀ id surface, s.slotSurfaces.values id = some surface → surface.registered = true →
        s'.slotSurfaces.values id = some surface := by
  induction entries generalizing s with
  | nil => exact ⟨s, rfl, h, rfl, rfl, fun _ _ hs _ => hs⟩
  | cons entry entries ih =>
    obtain ⟨hentry, hnodup⟩ := List.nodup_cons.mp hnodup
    have hmem := hentries entry List.mem_cons_self
    unfold RasterizerCache.collect
    split_ifs with htick
    · exact ih h (fun e he => hentries e (List.mem_cons_of_mem _ he)) hnodup
    obtain ⟨surface, hs, hreg, -⟩ := h.sentenced (List.mem_map_of_mem hmem)
    have hothers : ∀ other ∈ (s.sentenced.erase entry).map Prod.fst, other ∈ s.sentenced.map Prod.fst ∧
        other ≠ entry.1 := by
      intro other hother
      obtain ⟨e, he, rfl⟩ := List.mem_map.mp hother
      have hnodup' : s.sentenced.Nodup := List.Nodup.of_map _ h.tracked.sentencedNodup
      obtain ⟨hne, he'⟩ := (hnodup'.mem_erase_iff).mp he
      refine ⟨List.mem_map_of_mem he', ?_⟩
      intro heq
      exact hne (List.inj_on_of_nodup_map h.tracked.sentencedNodup he' hmem heq)
    obtain ⟨slots, herase, hslots, hkept⟩ := h.eraseSurface hs hreg
      (h.tracked.sentencedNodup.sublist (List.erase_sublist.map _)) hothers
    rw [herase, ok_bind]
    obtain ⟨s', hrun, hkept', hdirty, hdownloads, hvalues⟩ := ih hkept (by
      intro e he
      refine (List.mem_erase_of_ne ?_).mpr (hentries e (List.mem_cons_of_mem _ he))
      rintro rfl
      exact hentry (List.mem_map_of_mem he)) hnodup
    refine ⟨s', hrun, hkept', hdirty, hdownloads, ?_⟩
    intro id surface' hs' hreg'
    refine hvalues id surface' ?_ hreg'
    have hne : id ≠ entry.1 := by
      rintro rfl
      rw [hs, Option.some.injEq] at hs'
      rw [← hs', hreg] at hreg'
      cases hreg'
    show slots.values id = some surface'
    rw [hslots, update_of_ne hne]
    exact hs'

theorem Kept.runGarbageCollector (h : Kept marks s) (threshold : Nat) :
    ∃ s', s.runGarbageCollector threshold = .ok s' ∧ Kept marks s' ∧ s'.dirtyRegions = s.dirtyRegions ∧
      s'.downloads = s.downloads ∧
      ∀ id surface, s.slotSurfaces.values id = some surface → surface.registered = true →
        s'.slotSurfaces.values id = some surface := by
  have hkept : Kept marks { s with frameTick := (s.frameTick + 1) % 2 ^ 64 } :=
    KeepsPages.kept (s := s) ⟨fun _ => rfl, rfl, rfl, rfl, rfl, rfl⟩ h
  exact hkept.collect (fun _ he => he) h.tracked.sentencedNodup

theorem Kept.unregisterPages (h : Kept marks s) (pages : List Nat) :
    ∃ s', pages.foldlM (fun s page => RasterizerCache.unregisterPageSurfaces page
        ((s.pageTable page).getD []).length s) s = .ok s' ∧ Kept marks s' ∧ s'.dirtyRegions = s.dirtyRegions ∧
      s'.downloads = s.downloads ∧ KeepsRegistered s s' := by
  induction pages generalizing s with
  | nil => exact ⟨s, rfl, h, rfl, rfl, fun _ _ hs _ => hs⟩
  | cons page pages ih =>
    obtain ⟨s₁, hrun, hkept, hdirty, hdownloads, hregistered⟩ := h.unregisterPageSurfaces page le_rfl
    obtain ⟨s', hrun', hkept', hdirty', hdownloads', hregistered'⟩ := ih hkept
    refine ⟨s', ?_, hkept', hdirty'.trans hdirty, hdownloads'.trans hdownloads, ?_⟩
    · rw [List.foldlM_cons, hrun, ok_bind]
      exact hrun'
    · intro id surface hs hreg
      exact hregistered id surface (hregistered' id surface hs hreg) hreg

theorem Kept.unregisterAll (h : Kept marks s) (pages : List Nat) (threshold : Nat) :
    Outcome Excused (Kept marks) (s.unregisterAll pages threshold) := by
  refine Outcome.bind (flushRegion_excused s _ _ _) ?_
  intro s₁ hkeeps
  obtain ⟨s₂, hrun, hkept, -⟩ := (hkeeps.kept h).unregisterPages pages
  rw [hrun, ok_bind]
  have htick : Kept marks { s₂ with frameTick := (s₂.frameTick + threshold) % 2 ^ 64 } :=
    KeepsPages.kept (s := s₂) ⟨fun _ => rfl, rfl, rfl, rfl, rfl, rfl⟩ hkept
  obtain ⟨s', hrun', hkept', -⟩ := htick.runGarbageCollector threshold
  exact Outcome.of_ok ⟨s', hrun', hkept'⟩

theorem invalidateSurface_excused (addr size : Nat) (owner : Option SurfaceId)
    (state : RasterizerCache × List SurfaceId) (id : SurfaceId) :
    Outcome Excused (fun result => KeepsPages state.1 result.1 ∧
      (result.2 = state.2 ∨ result.2 = state.2 ++ [id])) (invalidateSurface addr size owner state id) := by
  obtain ⟨s, removeSurfaces⟩ := state
  unfold invalidateSurface
  split_ifs with hown hsmall
  · exact ⟨KeepsPages.refl s, Or.inl rfl⟩
  · refine Outcome.bind (surface_excused s id) ?_
    intro surface _
    refine Outcome.bind (flushRegion_excused s _ _ _) ?_
    intro s₁ hkeeps
    exact ⟨hkeeps, Or.inr rfl⟩
  · refine Outcome.bind (surface_excused s id) ?_
    intro surface hs
    refine Outcome.bind (P := fun _ => True) ?_ ?_
    · unfold Surface.isFullyInvalid
      dsimp only
      split
      · show Excused _
        decide
      · trivial
    · intro fullyInvalid _
      refine ⟨KeepsPages.modifySurface s id ?_, ?_⟩
      · intro surface' hs'
        rw [hs, Option.some.injEq] at hs'
        rw [← hs']
        exact ⟨rfl, rfl⟩
      · cases fullyInvalid with
        | true => exact Or.inr rfl
        | false => exact Or.inl rfl

theorem invalidateSurfaces_excused (addr size : Nat) (owner : Option SurfaceId) (surfaces : List SurfaceId)
    (state : RasterizerCache × List SurfaceId) :
    Outcome Excused (fun result => KeepsPages state.1 result.1 ∧
      ∃ removed, result.2 = state.2 ++ removed ∧ removed.Sublist surfaces)
      (surfaces.foldlM (invalidateSurface addr size owner) state) := by
  induction surfaces generalizing state with
  | nil => exact ⟨KeepsPages.refl state.1, [], by simp, List.Sublist.refl _⟩
  | cons id surfaces ih =>
    refine Outcome.bind (invalidateSurface_excused addr size owner state id) ?_
    rintro state₁ ⟨hkeeps, hremoved⟩
    refine Outcome.mono (ih state₁) ?_
    rintro result ⟨hkeeps', removed, hresult, hsub⟩
    refine ⟨hkeeps.trans hkeeps', ?_⟩
    rcases hremoved with heq | heq
    · exact ⟨removed, by rw [hresult, heq], hsub.cons id⟩
    · exact ⟨id :: removed, by rw [hresult, heq, List.append_assoc, List.singleton_append], hsub.cons_cons id⟩

theorem markOwnerValid_excused (s : RasterizerCache) (addr size : Nat) (owner : Option SurfaceId) :
    Outcome Excused (KeepsPages s) (s.markOwnerValid addr size owner) := by
  cases owner with
  | none => exact KeepsPages.refl s
  | some id =>
    refine Outcome.bind (surface_excused s id) ?_
    intro surface _
    split_ifs
    · exact markValid_keeps s id _ _
    · show Excused _
      decide

theorem setOwner_keeps (s : RasterizerCache) (addr size : Nat) (owner : Option SurfaceId) :
    KeepsPages s (s.setOwner addr size owner) := by
  cases owner with
  | none => exact ⟨fun _ => rfl, rfl, rfl, rfl, rfl, rfl⟩
  | some id => exact ⟨fun _ => rfl, rfl, rfl, rfl, rfl, rfl⟩

theorem Kept.invalidateRegion (h : Kept marks s) (addr size : Nat) (owner : Option SurfaceId) :
    Outcome Excused (Kept marks) (s.invalidateRegion addr size owner) := by
  unfold RasterizerCache.invalidateRegion
  split_ifs
  · exact h
  refine Outcome.bind (markOwnerValid_excused s addr size owner) ?_
  intro s₁ hkeeps₁
  have hkept₁ := hkeeps₁.kept h
  obtain ⟨surfaces, hsurfaces, hnodup, hall⟩ := hkept₁.surfacesInRegion addr size
  rw [hsurfaces, ok_bind]
  refine Outcome.bind (invalidateSurfaces_excused addr size owner surfaces (s₁, [])) ?_
  rintro ⟨s₂, removeSurfaces⟩ ⟨hkeeps₂, removed, hremoved, hsub⟩
  subst hremoved
  have hkeeps₃ := hkeeps₂.trans (setOwner_keeps s₂ addr size owner)
  obtain ⟨s', hrun, hkept', -⟩ := (hkeeps₃.kept hkept₁).unregisterSurfaces (hnodup.sublist hsub) (by
    intro id hid
    obtain ⟨surface, hs, hreg, -⟩ := hall id (hsub.subset hid)
    obtain ⟨surface', hs', -, hreg'⟩ := hkeeps₃.surface hs
    exact ⟨surface', hs', hreg'.trans hreg⟩)
  exact Outcome.of_ok ⟨s', hrun, hkept'⟩

theorem Kept.accelerateFill (h : Kept marks s) {startAddr endAddr : Nat}
    (hsound : Sound marks s (fillParams startAddr endAddr)) :
    Outcome Excused (Kept marks) (s.accelerateFill startAddr endAddr) := by
  have hcreated := h.insertSurface (fillParams startAddr endAddr) { params := fillParams startAddr endAddr } rfl fun hs => hs
  obtain ⟨surface, hs, hreg, hsound'⟩ := hcreated.surface
  unfold RasterizerCache.accelerateFill
  dsimp only
  obtain ⟨s', hrun, hkept, -⟩ := hcreated.kept.registerSurface hs hreg (hsound' hsound) hcreated.notSentenced
  rw [hrun, ok_bind]
  exact hkept.invalidateRegion _ _ _

theorem Kept.getSurface (h : Kept marks s) {params : SurfaceParams} (hsound : Sound marks s params)
    (scaleMatch : ScaleMatch) (loadIfCreate : Bool) (validations : List Validation) :
    Outcome Excused (Kept marks) (s.getSurface params scaleMatch loadIfCreate validations) := by
  unfold RasterizerCache.getSurface
  split_ifs
  · exact h
  · show Excused _
    decide
  all_goals
    obtain ⟨found, hfound, -⟩ := h.findMatch params scaleMatch fun surface => surface.params.exactMatch params
    rw [hfound, ok_bind]
    refine Outcome.bind (P := fun result => Kept marks result.1) ?_ ?_
    · cases found with
      | some id => exact h
      | none =>
        obtain ⟨s', id, hrun, hkept, -⟩ := h.createRegistered hsound
        exact Outcome.of_ok ⟨(s', id), hrun, hkept⟩
  · rintro ⟨s₁, id⟩ hkept
    refine Outcome.mono (validateSurface_excused s₁ id _ _ _) ?_
    intro s₂ hkeeps
    exact hkeeps.kept hkept
  · rintro ⟨s₁, id⟩ hkept
    exact hkept

theorem updateParams_excused (params : SurfaceParams) :
    Outcome Excused (fun _ => True) params.updateParams := by
  unfold SurfaceParams.updateParams
  generalize (if params.stride = 0 then params.width else params.stride) = stride
  split
  · show Excused _
    decide
  · by_cases hlevels : params.levels ≠ 1
    · rw [if_pos hlevels]
      split_ifs
      · trivial
      · show Excused _
        decide
    · rw [if_neg hlevels]
      trivial

theorem alignedParams_excused (params : SurfaceParams) : Outcome Excused (fun _ => True) (alignedParams params) := by
  unfold alignedParams
  split_ifs
  · exact updateParams_excused _
  · trivial

theorem Kept.subRectOfScale (h : Kept marks s) (params : SurfaceParams) (scaleMatch : ScaleMatch)
    (canSubRect : Surface → Bool) (found : Option SurfaceId) :
    ∃ result, s.subRectOfScale params scaleMatch canSubRect found = .ok result ∧ Kept marks result.1 ∧
      result.1.dirtyRegions = s.dirtyRegions ∧ result.1.downloads = s.downloads ∧
      result.1.pluginFbAddress = s.pluginFbAddress ∧
      ∀ other surface, s.slotSurfaces.values other = some surface → surface.registered = true →
        result.1.slotSurfaces.values other = some surface := by
  cases found with
  | some id => exact ⟨(s, some id), rfl, h, rfl, rfl, rfl, fun _ _ hs _ => hs⟩
  | none =>
    unfold RasterizerCache.subRectOfScale
    split_ifs
    · exact ⟨(s, none), rfl, h, rfl, rfl, rfl, fun _ _ hs _ => hs⟩
    obtain ⟨found, hfound, hregistered⟩ := h.findMatch params .ignore canSubRect
    rw [hfound, ok_bind]
    cases found with
    | none => exact ⟨(s, none), rfl, h, rfl, rfl, rfl, fun _ _ hs _ => hs⟩
    | some id =>
      obtain ⟨surface, hs, hreg⟩ := hregistered id rfl
      dsimp only
      rw [surface_ok hs, ok_bind]
      have hsound : Sound marks s { surface.params with resScale := params.resScale } :=
        Sound.congr rfl rfl rfl (h.sound hs hreg)
      obtain ⟨s', id', hrun, hkept, hdirty, hdownloads, hplugin, -, hothers⟩ := h.createRegistered hsound
      rw [hrun, ok_bind]
      exact ⟨(s', some id'), rfl, hkept, hdirty, hdownloads, hplugin, hothers⟩

theorem Kept.getSurfaceSubRect (h : Kept marks s) {params : SurfaceParams}
    (hsound : ∀ newParams, subRectParams params = .ok newParams → Sound marks s newParams) (scaleMatch : ScaleMatch)
    (loadIfCreate : Bool) (canSubRect : Surface → Bool) (validations : List Validation) :
    Outcome Excused (Kept marks) (s.getSurfaceSubRect params scaleMatch loadIfCreate canSubRect validations) := by
  unfold RasterizerCache.getSurfaceSubRect
  split_ifs
  · exact h
  obtain ⟨found, hfound, -⟩ := h.findMatch params scaleMatch canSubRect
  rw [hfound, ok_bind]
  obtain ⟨⟨s₁, found₁⟩, hrun, hkept, -, -, hplugin, -⟩ := h.subRectOfScale params scaleMatch canSubRect found
  rw [hrun, ok_bind]
  cases found₁ with
  | none =>
    refine Outcome.bind (P := fun newParams => Sound marks s newParams) ?_ ?_
    · refine Outcome.intro hsound ?_
      intro fault hfault
      have houtcome : Outcome Excused (fun _ => True) (subRectParams params) :=
        Outcome.bind (alignedParams_excused params) fun _ _ => updateParams_excused _
      rw [hfault] at houtcome
      exact houtcome
    · intro newParams hnew
      exact hkept.getSurface (Sound.congr rfl rfl hplugin hnew) _ _ _
  | some id =>
    refine Outcome.bind (alignedParams_excused params) ?_
    intro aligned _
    split_ifs
    · refine Outcome.mono (validateSurface_excused s₁ id _ _ _) ?_
      intro s₂ hkeeps
      exact hkeeps.kept hkept
    · exact hkept

theorem mark_false_le (marker : Memory.RasterizerCacheMarker) (vaddr other : Nat)
    (h : (marker.mark vaddr false).isCached other = true) : marker.isCached other = true := by
  unfold Memory.RasterizerCacheMarker.mark at h
  split_ifs at h
  · unfold Memory.RasterizerCacheMarker.isCached at h ⊢
    split_ifs at h ⊢ with hhas
    dsimp only at h
    by_cases hpage : other / pageSize = vaddr / pageSize
    · rw [hpage, update_self] at h
      cases h
    · rw [update_of_ne hpage] at h
      exact h
  · exact h

theorem markPages_false_le (pluginFb l u : Nat) (marker : Memory.RasterizerCacheMarker) (vaddr : Nat)
    (h : (markPages pluginFb l u false marker).isCached vaddr = true) : marker.isCached vaddr = true := by
  unfold markPages markRegionCached at h
  dsimp only at h
  generalize Memory.MemorySystem.cachedVaddrs _ _ _ = vaddrs at h
  induction vaddrs generalizing marker with
  | nil => exact h
  | cons first vaddrs ih => exact mark_false_le marker first vaddr (ih _ h)

theorem Kept.clear (hkept : Kept marks s)
    (hempty : ∀ id params, s.registeredParams id = some params → params.size = 0) : Kept marks s.clear := by
  have hmeets : ∀ pageBits page id, s.registeredMeets pageBits page id = false := by
    intro pageBits page id
    rw [Bool.eq_false_iff]
    intro htrue
    obtain ⟨params, hparams, hin⟩ := registeredMeets_iff.mp htrue
    have hsize := hempty id params hparams
    unfold SurfaceParams.Meets at hin
    omega
  have hcount : ∀ page, s.cachedPages.count page = 0 := by
    intro page
    have hnone : s.surfacesOfPage page = ∅ := by
      ext id
      rw [mem_surfacesOfPage, hmeets]
      simp
    rw [hkept.tracked.counts, hnone]
    rfl
  have hcount' : ∀ page, (s.cachedPages.erase 0 0xFFFFFFFF).count page = 0 := by
    intro page
    have hpage := hcount page
    unfold IntervalMap.count at hpage ⊢
    rw [IntervalMap.get?_erase]
    split_ifs
    · rfl
    · exact hpage
  refine ⟨⟨?_, ?_, hkept.tracked.proper, hkept.tracked.sentencedNodup, hkept.tracked.sentenced⟩, ?_⟩
  · intro page
    have hpage := hkept.tracked.counts page
    rw [hcount] at hpage
    exact (hcount' page).trans hpage
  · intro page
    refine ⟨List.nodup_nil, ?_⟩
    intro id
    show id ∈ [] ↔ s.registeredMeets citraPageBits page id = true
    rw [hmeets]
    simp
  · intro hmarks
    have hm := hkept.marked hmarks
    refine ⟨hm.plugin, ?_, hm.onMemory, hm.sentencedOnMemory⟩
    intro page vaddr hvaddr
    have hzero : s.clear.cachedPages.count page = 0 := hcount' page
    rw [hzero]
    have hold := hm.marks page vaddr hvaddr
    rw [hcount page] at hold
    rw [decide_eq_false (by decide), Bool.eq_false_iff]
    intro htrue
    rw [decide_eq_false (by decide), Bool.eq_false_iff] at hold
    apply hold
    unfold RasterizerCache.clear at htrue
    generalize s.cachedPages.range 0 0xFFFFFFFF = segments at htrue
    generalize s.cacheMarker = marker at htrue ⊢
    induction segments generalizing marker with
    | nil => exact htrue
    | cons segment segments ih =>
      exact markPages_false_le _ _ _ marker vaddr (ih _ htrue)

theorem Kept.clearAll (h : Kept marks s) (hempty : ∀ id params, s.registeredParams id = some params → params.size = 0)
    (flush : Bool) : Outcome Excused (Kept marks) (s.clearAll flush) := by
  cases flush with
  | false => exact h.clear hempty
  | true =>
    refine Outcome.bind (flushRegion_excused s 0 0xFFFFFFFF none) ?_
    intro s₁ hkeeps
    refine (hkeeps.kept h).clear ?_
    intro id params hparams
    rw [hkeeps.registeredParams] at hparams
    exact hempty id params hparams

theorem Kept.exec (h : Kept marks s) {op : Op} (hop : OpOk marks s op) :
    Outcome Excused (Kept marks) (s.exec op) := by
  cases op with
  | createSurface params => exact (h.createSurface params).kept
  | registerSurface id =>
    obtain ⟨hsent, hsound⟩ := hop
    show Outcome Excused (Kept marks) (s.registerSurface id)
    cases hs : s.slotSurfaces.values id with
    | none =>
      unfold RasterizerCache.registerSurface RasterizerCache.surface
      rw [hs]
      show Excused _
      decide
    | some surface =>
      cases hreg : surface.registered with
      | true =>
        unfold RasterizerCache.registerSurface
        rw [surface_ok hs, ok_bind, if_pos hreg]
        show Excused _
        decide
      | false =>
        obtain ⟨s', hrun, hkept, -⟩ := h.registerSurface hs hreg (hsound surface hs) hsent
        exact Outcome.of_ok ⟨s', hrun, hkept⟩
  | unregisterSurface id =>
    show Outcome Excused (Kept marks) (s.unregisterSurface id)
    cases hs : s.slotSurfaces.values id with
    | none =>
      unfold RasterizerCache.unregisterSurface RasterizerCache.surface
      rw [hs]
      show Excused _
      decide
    | some surface =>
      cases hreg : surface.registered with
      | false =>
        unfold RasterizerCache.unregisterSurface
        rw [surface_ok hs, ok_bind, hreg, if_neg (by decide)]
        show Excused _
        decide
      | true =>
        obtain ⟨s', hrun, hkept, -⟩ := h.unregisterSurface hs hreg
        exact Outcome.of_ok ⟨s', hrun, hkept⟩
  | flushRegion addr size flushSurface =>
    exact Outcome.mono (flushRegion_excused s addr size flushSurface) fun _ hkeeps => hkeeps.kept h
  | invalidateRegion addr size owner => exact h.invalidateRegion addr size owner
  | accelerateFill startAddr endAddr => exact h.accelerateFill hop
  | getSurface params scaleMatch loadIfCreate validations => exact h.getSurface hop scaleMatch loadIfCreate validations
  | getSurfaceSubRect params scaleMatch loadIfCreate canSubRect validations =>
    exact h.getSurfaceSubRect hop scaleMatch loadIfCreate canSubRect validations
  | validateSurface id addr size validations =>
    exact Outcome.mono (validateSurface_excused s id addr size validations) fun _ hkeeps => hkeeps.kept h
  | unregisterAll pages threshold => exact h.unregisterAll pages threshold
  | clearAll flush => exact h.clearAll hop flush
  | runGarbageCollector threshold =>
    obtain ⟨s', hrun, hkept, -⟩ := h.runGarbageCollector threshold
    exact Outcome.of_ok ⟨s', hrun, hkept⟩

theorem create_registeredParams (pluginFb : Nat) (id : SurfaceId) : (create pluginFb).registeredParams id = none := by
  refine registeredParams_eq_none_iff.mpr ?_
  intro surface hs
  unfold create at hs
  simp only [SlotVector.insert_values, update_apply] at hs
  split_ifs at hs
  · cases hs
    rfl
  · cases hs
    rfl
  · cases hs

theorem create_kept {pluginFb : Nat} (hplugin : marks → pluginFb % pageSize = 0) : Kept marks (create pluginFb) := by
  have hnone := create_registeredParams pluginFb
  have hmeets : ∀ pageBits page id, (create pluginFb).registeredMeets pageBits page id = false := by
    intro pageBits page id
    unfold registeredMeets
    rw [hnone]
  constructor
  · refine ⟨?_, ?_, ?_, List.nodup_nil, by simp [create]⟩
    · intro page
      have hempty : (create pluginFb).surfacesOfPage page = ∅ := by
        ext id
        rw [mem_surfacesOfPage, hmeets]
        simp
      rfl
    · intro page
      refine ⟨List.nodup_nil, ?_⟩
      intro id
      rw [hmeets]
      simp [create]
    · intro id params hparams
      rw [hnone] at hparams
      cases hparams
  · intro hmarks
    refine ⟨hplugin hmarks, ?_, ?_, by simp [create]⟩
    · intro page vaddr _
      show (⟨fun _ => false⟩ : Memory.RasterizerCacheMarker).isCached vaddr = decide (0 < (0 : Int))
      simp [Memory.RasterizerCacheMarker.isCached]
    · intro id params hparams
      rw [hnone] at hparams
      cases hparams

theorem Run.kept {s : RasterizerCache} (h : Run s) : Kept True s := by
  induction h with
  | init pluginFb hplugin => exact create_kept fun _ => hplugin
  | step op _ hop hexec ih =>
    have houtcome := ih.exec hop
    rw [hexec] at houtcome
    exact houtcome

/-- A memory fill of the first page of VRAM, and another one that overlaps it. -/
def twoFills : Except CacheFault RasterizerCache := do
  let s ← (create 0).exec (.accelerateFill 0x18000000 0x18001000)
  s.exec (.accelerateFill 0x18000800 0x18002000)

private theorem fill_sound (s : RasterizerCache) (hplugin : s.pluginFbAddress = 0) (startAddr endAddr : Nat)
    (hstart : 0x18000000 ≤ startAddr) (hlt : startAddr < endAddr) (hend : endAddr ≤ 0x18600000) :
    Sound True s (fillParams startAddr endAddr) := by
  have hsize : subU32 endAddr startAddr = endAddr - startAddr := by
    unfold subU32
    omega
  unfold Sound fillParams SurfaceParams.Proper SurfaceParams.OnMemory SurfaceParams.Meets
  dsimp only
  rw [hsize, hplugin]
  refine ⟨Or.inl ⟨by omega, by omega⟩, ?_⟩
  intro _ page hpage
  have hin : Memory.InRegion Memory.vramPaddr Memory.vramSize (page * pageSize) := by
    unfold Memory.InRegion Memory.vramPaddr Memory.vramSize pageSize
    omega
  unfold pageVaddrs Memory.MemorySystem.physicalToVirtualAddressForRasterizer
  rw [if_pos hin]
  simp

def clearedFill : Except CacheFault RasterizerCache := do
  let s ← (create 0).exec (.accelerateFill 0x18000000 0x18001000)
  s.exec (.clearAll true)

end RasterizerCache

end SweepDSEmu.VideoCore
