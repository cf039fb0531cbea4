import SweepDSEmu.Kernel.VMManagerCarve

/-!
# Updating the areas of a range

The loop of `ChangeMemoryState`, `UnmapRange` and `ReprotectRange`: it changes the attributes of one area after the
other and merges each one with its neighbours.

The loop skips an area that it has merged into the one before.  Such an area already has the new attributes, so the
address space ends up as it should.  But when that area is the left side of the cut at the end of the range, nobody
merges it with the right side again: `Straddles` describes this case, and without it the loop keeps the map
canonical.
-/

namespace SweepDSEmu

open VirtualMemoryArea

structure Update (f : VirtualMemoryArea → VirtualMemoryArea) (F : PageAttr → PageAttr) : Prop where
  base : ∀ v, (f v).base = v.base
  size : ∀ v, (f v).size = v.size
  attr : ∀ v x, (f v).attrAt x = F (v.attrAt x)
  absorb : ∀ v w x, (f v).Mergeable w → F (w.attrAt x) = w.attrAt x
  splitRight : ∀ v n z, n < v.size → ((f (v.splitRight n)).Mergeable z ↔ (f v).Mergeable z)

/-- Two neighbours such that the range from `t` to `e` contains the start of the second one and ends inside it, and
the change makes the first one continue in the second one. -/
def Straddles (f : VirtualMemoryArea → VirtualMemoryArea) (t e : Nat) (l : Areas) : Prop :=
  ∃ p a b s, l = p ++ a :: b :: s ∧ t < b.2.base ∧ b.2.base < e ∧ e < b.2.stop ∧ (f a.2).Mergeable b.2

instance (f : VirtualMemoryArea → VirtualMemoryArea) (t e : Nat) (l : Areas) : Decidable (Straddles f t e l) :=
  decidable_of_iff (¬ l.IsChain fun a b =>
    ¬ (t < b.2.base ∧ b.2.base < e ∧ e < b.2.stop ∧ (f a.2).Mergeable b.2)) (by
    rw [List.isChain_iff_forall_rel_of_append_cons_cons]
    constructor
    · intro h
      by_contra hcon
      apply h
      intro a b p s hl hab
      exact hcon ⟨p, a, b, s, hl, hab⟩
    · rintro ⟨p, a, b, s, hl, hab⟩ h
      exact h hl hab)

namespace VMManager

variable {f : VirtualMemoryArea → VirtualMemoryArea} {F : PageAttr → PageAttr} {m : VMManager} {e : Nat}

private theorem updateRange_done {pre rest : Areas} {c fuel : Nat} (ht : m.Tiled) (hm : m.vmaMap = pre ++ rest)
    (hrest : Tiles c rest maxAddress) (hc : e ≤ c) (hfuel : rest.length ≤ fuel) :
    updateRange f e fuel (rest.head?.map Prod.fst) m = some m := by
  cases rest with
  | nil => simp [updateRange]
  | cons q rest =>
    obtain ⟨k, w⟩ := q
    obtain ⟨rfl, hw, -, -⟩ := hrest
    cases fuel with
    | zero => simp at hfuel
    | succ fuel =>
      have hget := get?_area ht (show m.vmaMap = pre ++ (w.base, w) :: rest by rw [hw]; exact hm)
      simp only [List.head?_cons, Option.map_some, ← hw, updateRange, hget, Option.bind_eq_bind, Option.bind_some]
      rw [if_neg (by omega)]
      rfl

variable {mid pre tail : Areas} {v : VirtualMemoryArea}

theorem updateRange_step (hu : Update f F) {pre post : Areas} {fuel : Nat} (ht : m.Tiled)
    (hm : m.vmaMap = pre ++ (v.base, v) :: post) (hlt : v.base < e) : updateRange f e (fuel + 1) (some v.base) m =
      updateRange f e fuel ((joinNext (f v) post).2.head?.map Prod.fst) { m with vmaMap := mergedAreas pre (f v) post } := by
  obtain ⟨ht', heq⟩ := updateVMA_eq ht hm (hu.base v) (hu.size v)
  simp only [updateRange, get?_area ht hm, Option.bind_eq_bind, Option.bind_some, if_pos hlt, heq]
  have hsorted := (mergedAreas_tiles ht').1.sorted
  have hnext : OrderedMap.next (mergedAreas pre (f v) post) (merged pre (f v) post).2.1.base =
      (joinNext (f v) post).2.head?.map Prod.fst := OrderedMap.next_split hsorted
  rw [hnext]

private theorem absAt_update (hu : Update f F) {pre post : Areas}
    (ht : Tiles 0 (pre ++ (v.base, v) :: post) maxAddress) (x : Nat) : absAt (pre ++ ((f v).base, f v) :: post) x =
      if v.base ≤ x ∧ x < v.stop then (absAt (pre ++ (v.base, v) :: post) x).map F
      else absAt (pre ++ (v.base, v) :: post) x := by
  have hstop : (f v).stop = v.stop := by unfold stop; rw [hu.base, hu.size]
  obtain ⟨h1, -, -, -⟩ := tiles_split.mp ht
  rw [absAt_append, absAt_cons, hu.base, hstop]
  by_cases hx : v.base ≤ x ∧ x < v.stop
  · rw [if_pos hx, if_pos hx, absAt_split_mem ht hx.1 hx.2, h1.absAt_outside (Or.inr hx.1), hu.attr]
    rfl
  · rw [if_neg hx, if_neg hx, absAt_append, absAt_cons, if_neg hx]

private theorem joinPrev_mergeable (pre : Areas) (v z : VirtualMemoryArea) :
    (joinPrev pre v).2.Mergeable z ↔ v.Mergeable z := by
  rcases joinPrev_cases pre v with ⟨h, -⟩ | ⟨u, pre', -, hmerge, h⟩ <;> rw [h]
  exact mergeable_join_right hmerge

private theorem joinPrev_canonical (hpre : Canonical pre) (v : VirtualMemoryArea) :
    Canonical ((joinPrev pre v).1 ++ [((joinPrev pre v).2.base, (joinPrev pre v).2)]) := by
  have h : Canonical (mergedAreas pre v []) := mergedAreas_canonical hpre List.isChain_nil
  exact h

private theorem joinPrev_tilesPre (hpre : Tiles 0 pre v.base) (hpos : 0 < v.size) :
    Tiles 0 ((joinPrev pre v).1 ++ [((joinPrev pre v).2.base, (joinPrev pre v).2)]) v.stop := by
  have h : Tiles 0 (pre ++ [(v.base, v)]) v.stop := tiles_split.mpr ⟨hpre, rfl, hpos, rfl⟩
  exact (joinPrev_tiles h).1

private def EndOk (f : VirtualMemoryArea → VirtualMemoryArea) (mid tail : Areas) : Prop :=
  ∀ p a b, mid = p ++ [a, b] → (f a.2).Mergeable b.2 → ∀ z ∈ tail.head?, ¬ b.2.Mergeable z.2

/-- The area before the loop position contains the addresses from `t` on, and every changed area continues it. -/
private def Reaches (f : VirtualMemoryArea → VirtualMemoryArea) (t : Nat) (pre : Areas) : Prop :=
  ∃ pre' p, pre = pre' ++ [p] ∧ p.2.base ≤ t ∧ ∀ w, p.2.Mergeable (f w)

/-- What the loop has achieved when it started at the address `b`. -/
private structure Updated (f : VirtualMemoryArea → VirtualMemoryArea) (F : PageAttr → PageAttr) (t b e : Nat)
    (pre mid tail : Areas) (m m' : VMManager) : Prop where
  locked : m'.isLocked = m.isLocked
  tiled : m'.Tiled
  abs : ∀ x, absAt m'.vmaMap x = if b ≤ x ∧ x < e then (absAt m.vmaMap x).map F else absAt m.vmaMap x
  canonical : Canonical pre → Canonical mid → Canonical tail → EndOk f mid tail →
    (mid = [] → Canonical (pre ++ tail)) → Canonical m'.vmaMap
  reaches : (∀ v w, (f v).Mergeable (f w) ∧ (f v).type = .free) → Reaches f t pre ∨ (b = t ∧ mid ≠ []) →
    ∃ l p l', m'.vmaMap = l ++ (p.base, p) :: l' ∧ p.base ≤ t ∧ e ≤ p.stop

private theorem Updated.nil {t b : Nat} (ht : m.Tiled) (hm : m.vmaMap = pre ++ tail)
    (hpre : Tiles 0 pre b) (hb : e ≤ b) : Updated f F t b e pre [] tail m m where
  locked := rfl
  tiled := ht
  abs := by
    intro x
    rw [if_neg (by omega)]
  canonical := by
    intro _ _ _ _ hboundary
    rw [hm]
    exact hboundary rfl
  reaches := by
    rintro - (⟨pre', ⟨k, p⟩, rfl, hp, -⟩ | ⟨-, h⟩)
    · obtain ⟨-, rfl, -, hstop⟩ := tiles_split.mp hpre
      have hstop : p.stop = b := hstop
      exact ⟨pre', p, tail, by rw [hm]; simp, hp, by omega⟩
    · exact absurd rfl h

private theorem joinPrev_reaches {t : Nat} {v w : VirtualMemoryArea} (hpre : Tiles 0 pre v.base)
    (hw : ∀ z, w.Mergeable (f z)) (hwv : ∀ u : VirtualMemoryArea, u.Mergeable (f v) → u.Mergeable w)
    (hbase : w.base = v.base) (h : Reaches f t pre ∨ (v.base = t ∧ mid ≠ [])) :
    Reaches f t ((joinPrev pre w).1 ++ [((joinPrev pre w).2.base, (joinPrev pre w).2)]) := by
  refine ⟨_, _, rfl, ?_, fun z => (joinPrev_mergeable pre w (f z)).mpr (hw z)⟩
  rcases joinPrev_cases pre w with ⟨hj, hno⟩ | ⟨u, pre', rfl, hmerge, hj⟩ <;> rw [hj]
  · rcases h with ⟨pre', p, rfl, -, hp⟩ | ⟨h, -⟩
    · exact absurd (hwv p.2 (hp v)) (hno p (by simp))
    · show w.base ≤ t
      omega
  · show u.2.base ≤ t
    rcases h with ⟨pre'', p, happ, hp, -⟩ | ⟨h, -⟩
    · obtain ⟨-, hlast⟩ := List.append_inj' happ rfl
      rw [List.singleton_inj.mp hlast]
      exact hp
    · have hmem := hpre.mem (show u ∈ pre' ++ [u] by simp)
      unfold stop at hmem
      omega

private theorem join_mergeable_free {u w z : VirtualMemoryArea} (h : u.Mergeable z) (hfree : u.type = .free) :
    (u.join w).Mergeable z := by
  obtain ⟨h1, h2, h3, -⟩ := h
  refine ⟨h1, h2, h3, ?_⟩
  intro hb
  have hb : u.type = .backingMemory := hb
  rw [hfree] at hb
  cases hb

private theorem Updated.turn (hu : Update f F) {t : Nat} {m' : VMManager}
    (ht : Tiles 0 (pre ++ (v.base, v) :: (mid ++ tail)) maxAddress)
    (hm : m.vmaMap = pre ++ (v.base, v) :: (mid ++ tail)) (hmid : Tiles v.stop mid e)
    (hno : ∀ n ∈ (mid ++ tail).head?, ¬ (f v).Mergeable n.2) {m₁ : VMManager} (hlocked : m₁.isLocked = m.isLocked)
    (habs : ∀ x, absAt m₁.vmaMap x = absAt (pre ++ ((f v).base, f v) :: (mid ++ tail)) x)
    (h : Updated f F t v.stop e ((joinPrev pre (f v)).1 ++ [((joinPrev pre (f v)).2.base, (joinPrev pre (f v)).2)])
      mid tail m₁ m') : Updated f F t v.base e pre ((v.base, v) :: mid) tail m m' := by
  obtain ⟨hpre, -, hpos, -⟩ := tiles_split.mp ht
  have hle := hmid.le
  refine ⟨h.locked.trans hlocked, h.tiled, ?_, ?_, ?_⟩
  · intro x
    have hv : v.base < v.stop := by unfold stop; omega
    rw [h.abs x, habs x, absAt_update hu ht x, hm]
    by_cases h1 : v.stop ≤ x ∧ x < e
    · rw [if_pos h1, if_neg (by omega), if_pos (by omega)]
    · rw [if_neg h1]
      by_cases h2 : v.base ≤ x ∧ x < v.stop
      · rw [if_pos h2, if_pos (by omega)]
      · rw [if_neg h2, if_neg (by omega)]
  · intro hc1 hc2 hc3 hend _
    refine h.canonical (joinPrev_canonical hc1 _) hc2.tail hc3 ?_ ?_
    · intro p a b hmid'
      exact hend ((v.base, v) :: p) a b (by rw [hmid']; rfl)
    · rintro rfl
      refine List.isChain_append.mpr ⟨joinPrev_canonical hc1 _, hc3, ?_⟩
      intro x hx y hy
      simp only [List.getLast?_append, List.getLast?_singleton, Option.some_or, Option.mem_def, Option.some.injEq] at hx
      subst hx
      exact (joinPrev_mergeable pre (f v) y.2).not.mpr (hno y hy)
  · intro hglue hr
    exact h.reaches hglue (Or.inl (joinPrev_reaches hpre (fun z => (hglue v z).1) (fun _ hu => hu) (hu.base v) hr))

private theorem Updated.turnAbsorb (hu : Update f F) {t : Nat} {v w : VirtualMemoryArea}
    {m' : VMManager} (ht : Tiles 0 (pre ++ (v.base, v) :: (w.base, w) :: (mid ++ tail)) maxAddress)
    (hm : m.vmaMap = pre ++ (v.base, v) :: (w.base, w) :: (mid ++ tail)) (hmid : Tiles w.stop mid e)
    (hmerge : (f v).Mergeable w) {m₁ : VMManager} (hlocked : m₁.isLocked = m.isLocked)
    (habs : ∀ x, absAt m₁.vmaMap x = absAt (pre ++ ((f v).base, f v) :: (w.base, w) :: (mid ++ tail)) x)
    (h : Updated f F t w.stop e
      ((joinPrev pre ((f v).join w)).1 ++ [((joinPrev pre ((f v).join w)).2.base, (joinPrev pre ((f v).join w)).2)])
      mid tail m₁ m') : Updated f F t v.base e pre ((v.base, v) :: (w.base, w) :: mid) tail m m' := by
  obtain ⟨hpre, -, hpos, hstop, hstop', hwpos, -⟩ := tiles_split.mp ht
  have hle := hmid.le
  have hv : v.base < v.stop := by unfold stop; omega
  have hw : w.base < w.stop := by unfold stop; omega
  refine ⟨h.locked.trans hlocked, h.tiled, ?_, ?_, ?_⟩
  · intro x
    rw [h.abs x, habs x, absAt_update hu ht x, hm]
    by_cases h1 : w.stop ≤ x ∧ x < e
    · rw [if_pos h1, if_neg (by omega), if_pos (by omega)]
    · rw [if_neg h1]
      by_cases h2 : v.base ≤ x ∧ x < v.stop
      · rw [if_pos h2, if_pos (by omega)]
      · rw [if_neg h2]
        by_cases h3 : v.base ≤ x ∧ x < e
        · -- an address of the absorbed area, whose attributes are already the new ones
          rw [if_pos h3]
          have happ : pre ++ (v.base, v) :: (w.base, w) :: (mid ++ tail) =
              (pre ++ [(v.base, v)]) ++ (w.base, w) :: (mid ++ tail) := by simp
          rw [happ] at ht ⊢
          rw [absAt_split_mem ht (show w.base ≤ x by omega) (by omega), Option.map_some, hu.absorb v w x hmerge]
        · rw [if_neg h3]
  · intro hc1 hc2 hc3 hend _
    refine h.canonical (joinPrev_canonical hc1 _) hc2.tail.tail hc3 ?_ ?_
    · intro p a b hmid'
      exact hend ((v.base, v) :: (w.base, w) :: p) a b (by rw [hmid']; rfl)
    · rintro rfl
      refine List.isChain_append.mpr ⟨joinPrev_canonical hc1 _, hc3, ?_⟩
      intro x hx y hy
      simp only [List.getLast?_append, List.getLast?_singleton, Option.some_or, Option.mem_def, Option.some.injEq] at hx
      subst hx
      rw [joinPrev_mergeable, mergeable_join_right hmerge]
      exact hend [] (v.base, v) (w.base, w) rfl hmerge y hy
  · intro hglue hr
    refine h.reaches hglue (Or.inl (joinPrev_reaches hpre ?_ (fun _ hu => hu) (hu.base v) hr))
    intro z
    exact join_mergeable_free (hglue v z).1 (hglue v z).2

private theorem Updated.turnLast (hu : Update f F) {t : Nat} {v w : VirtualMemoryArea}
    (ht : Tiles 0 (pre ++ (v.base, v) :: (w.base, w) :: tail) maxAddress)
    (hm : m.vmaMap = pre ++ (v.base, v) :: (w.base, w) :: tail) (hend : v.stop = e) (hmerge : (f v).Mergeable w)
    {m' : VMManager} (hm' : m' = { m with vmaMap := mergedAreas pre (f v) ((w.base, w) :: tail) })
    (ht' : Tiles 0 (pre ++ ((f v).base, f v) :: (w.base, w) :: tail) maxAddress) :
    Updated f F t v.base e pre [(v.base, v)] ((w.base, w) :: tail) m m' := by
  obtain ⟨hpre, -, hpos, hstop, hstop', hwpos, -⟩ := tiles_split.mp ht
  obtain ⟨htm, habs⟩ := mergedAreas_tiles ht'
  subst hm'
  refine ⟨rfl, htm, ?_, ?_, ?_⟩
  · intro x
    rw [habs x, absAt_update hu ht x, hm, hend]
  · intro hc1 _ hc3 _ _
    exact mergedAreas_canonical hc1 hc3
  · intro hglue hr
    have hfv : (f v).stop = w.base := by
      unfold stop at hstop ⊢
      rw [hu.base, hu.size]
      exact hstop.symm
    have hbase : ((f v).join w).base = v.base := hu.base v
    have hsize : 0 < ((f v).join w).size := by
      show 0 < (f v).size + w.size
      omega
    have hreach := joinPrev_reaches hpre (fun z => join_mergeable_free (hglue v z).1 (hglue v z).2)
      (fun _ hu => hu) hbase hr
    have htiles := joinPrev_tilesPre (v := (f v).join w) (by rw [hbase]; exact hpre) hsize
    rw [join_stop _ _ hfv] at htiles
    obtain ⟨pre', p, happ, hp, -⟩ := hreach
    obtain ⟨-, hlast⟩ := List.append_inj' happ rfl
    rw [← List.singleton_inj.mp hlast] at hp
    obtain ⟨-, -, -, hst⟩ := tiles_split.mp htiles
    have hst : (joinPrev pre ((f v).join w)).2.stop = w.stop := hst
    have hjn : joinNext (f v) ((w.base, w) :: tail) = ((f v).join w, tail) := if_pos hmerge
    refine ⟨(joinPrev pre ((f v).join w)).1, (joinPrev pre ((f v).join w)).2, tail, ?_, hp, ?_⟩
    · show mergedAreas pre (f v) ((w.base, w) :: tail) = _
      rw [mergedAreas, merged, hjn]
    · rw [hst, ← hend, ← hstop]
      unfold stop
      omega

private theorem updateRange_updated (hu : Update f F) (t : Nat) {fuel b : Nat}
    (hm : m.vmaMap = pre ++ (mid ++ tail)) (hpre : Tiles 0 pre b) (hmid : Tiles b mid e) (htail : Tiles e tail maxAddress)
    (hfuel : (mid ++ tail).length ≤ fuel) :
    ∃ m', updateRange f e fuel ((mid ++ tail).head?.map Prod.fst) m = some m' ∧ Updated f F t b e pre mid tail m m' := by
  induction fuel generalizing m b pre mid with
  | zero =>
    obtain ⟨rfl, rfl⟩ := List.append_eq_nil_iff.mp (List.length_eq_zero_iff.mp (Nat.le_zero.mp hfuel))
    obtain rfl : b = e := hmid
    have ht : m.Tiled := by
      unfold Tiled
      rw [hm]
      exact tiles_append.mpr ⟨b, hpre, htail⟩
    exact ⟨m, rfl, Updated.nil ht hm hpre le_rfl⟩
  | succ fuel ih =>
    have ht : m.Tiled := by
      unfold Tiled
      rw [hm]
      exact tiles_append.mpr ⟨b, hpre, tiles_append.mpr ⟨e, hmid, htail⟩⟩
    cases mid with
    | nil =>
      obtain rfl : b = e := hmid
      exact ⟨m, updateRange_done ht hm htail le_rfl hfuel, Updated.nil ht hm hpre le_rfl⟩
    | cons q mid =>
      obtain ⟨k, v⟩ := q
      obtain ⟨rfl, hv, hpos, hmid⟩ := hmid
      subst hv
      have hmid : Tiles v.stop mid e := hmid
      have hle := hmid.le
      have hlt : v.base < e := by unfold stop at hle; omega
      have hm' : m.vmaMap = pre ++ (v.base, v) :: (mid ++ tail) := hm
      have htl : Tiles 0 (pre ++ (v.base, v) :: (mid ++ tail)) maxAddress := by rw [← hm']; exact ht
      have hfv : (f v).stop = v.stop := by unfold stop; rw [hu.base, hu.size]
      obtain ⟨ht', -⟩ := updateVMA_eq ht hm' (hu.base v) (hu.size v)
      obtain ⟨htm, habs⟩ := mergedAreas_tiles ht'
      let m₁ : VMManager := { m with vmaMap := mergedAreas pre (f v) (mid ++ tail) }
      have hstep : updateRange f e (fuel + 1) (((v.base, v) :: mid ++ tail).head?.map Prod.fst) m =
          updateRange f e fuel ((joinNext (f v) (mid ++ tail)).2.head?.map Prod.fst) m₁ :=
        updateRange_step hu ht hm' hlt
      rw [hstep]
      have hlen : (mid ++ tail).length ≤ fuel := by simpa using hfuel
      rcases joinNext_cases (f v) (mid ++ tail) with ⟨hj, hno⟩ | ⟨⟨k, w⟩, post', hpost, hmerge, hj⟩
      · have hpre' := joinPrev_tilesPre (v := f v) (by rw [hu.base]; exact hpre) (by rw [hu.size]; exact hpos)
        rw [hfv] at hpre'
        have hm₁ : m₁.vmaMap = (joinPrev pre (f v)).1 ++ [((joinPrev pre (f v)).2.base, (joinPrev pre (f v)).2)] ++
            (mid ++ tail) := by simp [m₁, mergedAreas, merged, hj]
        obtain ⟨m₂, hr, hup⟩ := ih hm₁ hpre' hmid hlen
        rw [hj]
        exact ⟨m₂, hr, hup.turn hu htl hm' hmid hno (show m₁.isLocked = m.isLocked from rfl) habs⟩
      · have hpos' : Tiles v.stop ((k, w) :: post') maxAddress := by
          rw [← hpost]
          exact tiles_append.mpr ⟨e, hmid, htail⟩
        obtain ⟨rfl, hw, hwpos, hpost'⟩ := hpos'
        have hfw : (f v).stop = w.base := hfv.trans hw.symm
        have hpost' : Tiles w.stop post' maxAddress := by
          unfold stop at hpost' hw ⊢
          rw [hw]
          exact hpost'
        rw [← hw] at hpost
        cases mid with
        | nil =>
          -- merged with the first area after the range
          obtain rfl : v.stop = e := hmid
          subst hpost
          refine ⟨m₁, ?_, Updated.turnLast hu htl hm' rfl hmerge rfl ht'⟩
          have hm₁ : m₁.vmaMap = (merged pre (f v) ((w.base, w) :: post')).1 ++
              [((merged pre (f v) ((w.base, w) :: post')).2.1.base, (merged pre (f v) ((w.base, w) :: post')).2.1)] ++
              post' := by simp [m₁, mergedAreas, merged, joinNext, hmerge]
          have hjn : (joinNext (f v) ([] ++ (w.base, w) :: post')).2 = post' := by
            simp only [List.nil_append, joinNext]
            rw [if_pos hmerge]
          rw [hjn]
          refine updateRange_done htm hm₁ hpost' ?_ ?_
          · unfold stop at hw ⊢
            omega
          · simp only [List.nil_append, List.length_cons] at hlen
            omega
        | cons q mid =>
          obtain ⟨rfl, rfl⟩ := List.cons.inj hpost
          have hmid' : Tiles w.stop mid e := by
            have := hmid.2.2.2
            unfold stop at this hw ⊢
            rw [hw]
            exact this
          have hbase : ((f v).join w).base = v.base := hu.base v
          have hpre' := joinPrev_tilesPre (v := (f v).join w) (by rw [hbase]; exact hpre)
            (show 0 < (f v).size + w.size by omega)
          rw [join_stop _ _ hfw] at hpre'
          have hjn : joinNext (f v) ((w.base, w) :: mid ++ tail) = ((f v).join w, mid ++ tail) := if_pos hmerge
          have hm₁ : m₁.vmaMap = (joinPrev pre ((f v).join w)).1 ++
              [((joinPrev pre ((f v).join w)).2.base, (joinPrev pre ((f v).join w)).2)] ++ (mid ++ tail) := by
            simp [m₁, mergedAreas, merged, joinNext, hmerge]
          obtain ⟨m₂, hr, hup⟩ := ih hm₁ hpre' hmid' (by simp only [List.cons_append, List.length_cons] at hlen; omega)
          rw [hjn]
          exact ⟨m₂, hr, hup.turnAbsorb hu htl hm' hmid' hmerge (show m₁.isLocked = m.isLocked from rfl) habs⟩

private theorem head_of_tiles {a b : Nat} {l : Areas} (h : Tiles a l b) (hlt : a < b) (l' : Areas) :
    l ≠ [] ∧ (l ++ l').head?.map Prod.fst = some a := by
  cases l with
  | nil =>
    have hab : a = b := h
    omega
  | cons p l => exact ⟨by simp, congrArg some h.1⟩

private theorem Carved.endOk (hu : Update f F) {l pre mid tail : Areas} {t : Nat} (hc : Carved l t e pre mid tail)
    (hcan : Canonical l) (hno : ¬ Straddles f t e l) : EndOk f mid tail := by
  obtain ⟨l', hcut, hcut'⟩ := hc.cuts
  have hcan' := (hcut.canonical hcan).2
  intro p a b hmid hmerge z hz hbz
  cases hcut' with
  | boundary _ _ h =>
    -- the end of the range is a boundary of the map
    rw [h] at hcan'
    exact (List.isChain_append.mp hcan').2.2 b (by rw [hmid]; simp) z hz hbz
  | inside q s v h h1 h2 =>
    -- the last area of the range is the left side of the cut
    have happ : q ++ [(v.base, v.splitLeft (e - v.base))] = (p ++ [a]) ++ [b] := by rw [hmid]; simp
    obtain ⟨hq, hb⟩ := List.append_inj' happ rfl
    obtain rfl := List.singleton_inj.mp hb
    have hmergev : (f a.2).Mergeable v := hmerge
    have htmid := hc.tilesMid
    rw [hmid] at htmid
    obtain ⟨c, h0, -, -, ha, -, hb, -⟩ := tiles_append.mp htmid
    have hb : v.base = c + a.2.size := hb
    have htc := h0.le
    rw [hq] at h
    cases hcut with
    | boundary _ _ h' =>
      refine hno ⟨pre ++ p, a, (v.base, v), s, ?_, by show t < v.base; omega, h1, h2, hmergev⟩
      rw [h', h]
      simp
    | inside p₁ s₁ u h' h3 h4 =>
      rw [h'] at hno
      cases p with
      | nil =>
        obtain ⟨rfl, rfl⟩ := List.cons.inj h
        refine hno ⟨p₁, (u.base, u), (v.base, v), s, rfl, by show t < v.base; omega, h1, h2, ?_⟩
        exact (hu.splitRight u _ v (by unfold stop at h4; omega)).mp hmergev
      | cons q p =>
        obtain ⟨-, rfl⟩ := List.cons.inj h
        exact hno ⟨p₁ ++ (u.base, u) :: p, a, (v.base, v), s, by simp, by show t < v.base; omega, h1, h2, hmergev⟩

/-- The effect of the loop on a range that has been carved out. -/
structure RangeUpdated (f : VirtualMemoryArea → VirtualMemoryArea) (F : PageAttr → PageAttr) (t e : Nat)
    (m m' : VMManager) : Prop where
  locked : m'.isLocked = m.isLocked
  tiled : m'.Tiled
  abs : ∀ x, absAt m'.vmaMap x = if t ≤ x ∧ x < e then (absAt m.vmaMap x).map F else absAt m.vmaMap x
  canonical : Canonical m.vmaMap → ¬ Straddles f t e m.vmaMap → Canonical m'.vmaMap
  covers : (∀ v w, (f v).Mergeable (f w) ∧ (f v).type = .free) →
    ∃ l p l', m'.vmaMap = l ++ (p.base, p) :: l' ∧ p.base ≤ t ∧ e ≤ p.stop

theorem updateRange_carved (hu : Update f F) {t : Nat} (hc : Carved m.vmaMap t e pre mid tail)
    (hlt : t < e) :
    ∃ m', updateRange f e (pre ++ mid ++ tail).length (some t) { m with vmaMap := pre ++ mid ++ tail } = some m' ∧
      RangeUpdated f F t e m m' := by
  obtain ⟨hne, hhead⟩ := head_of_tiles hc.tilesMid hlt tail
  let m₁ : VMManager := { m with vmaMap := pre ++ mid ++ tail }
  have hlen : (mid ++ tail).length ≤ (pre ++ mid ++ tail).length := by simp
  obtain ⟨m', hr, hup⟩ := updateRange_updated (m := m₁) hu t (by simp [m₁]) hc.tilesPre hc.tilesMid hc.tilesTail hlen
  rw [hhead] at hr
  refine ⟨m', hr, hup.locked, hup.tiled, ?_, ?_, ?_⟩
  · intro x
    rw [hup.abs x, hc.absAt_eq x]
  · intro hcan hno
    obtain ⟨l', hcut, hcut'⟩ := hc.cuts
    obtain ⟨h1, h2⟩ := hcut.canonical hcan
    obtain ⟨h3, h4⟩ := hcut'.canonical h2
    exact hup.canonical h1 h3 h4 (hc.endOk hu hcan hno) fun h => absurd h hne
  · intro hglue
    exact hup.reaches hglue (Or.inr ⟨rfl, hne⟩)

end VMManager

end SweepDSEmu
