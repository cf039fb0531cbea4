import SweepDSEmu.Kernel.VMManagerTiling

/-!
# Carving ranges out of the address space

`Cut l x l₁ l₂` says that `l₁` and `l₂` are what is left of `l` and right of the address `x`, where the area that
contains `x` has been split.  `CarveVMA` and `CarveVMARange` are two cuts, at the ends of the range.

Cutting a canonical map leaves canonical pieces.  Only the two sides of a cut can be merged again.
-/

namespace SweepDSEmu

open VirtualMemoryArea

/-- The areas `l` cut at the address `x`. -/
inductive Cut (l : Areas) (x : Nat) : Areas → Areas → Prop
  | boundary (l₁ l₂ : Areas) (h : l = l₁ ++ l₂) : Cut l x l₁ l₂
  | inside (p s : Areas) (v : VirtualMemoryArea) (h : l = p ++ (v.base, v) :: s) (h1 : v.base < x) (h2 : x < v.stop) :
      Cut l x (p ++ [(v.base, v.splitLeft (x - v.base))]) ((x, v.splitRight (x - v.base)) :: s)

section Cuts

variable {l l₁ l₂ : Areas} {x : Nat}

theorem Cut.absAt_eq (h : Cut l x l₁ l₂) (y : Nat) : absAt (l₁ ++ l₂) y = absAt l y := by
  cases h with
  | boundary _ _ h => rw [h]
  | inside p s v h h1 h2 =>
    rw [h]
    have hlt : x - v.base < v.size := by unfold stop at h2; omega
    show absAt ((p ++ [_]) ++ ([_] ++ s)) y = absAt (p ++ ([_] ++ s)) y
    have hv := absAt_splitVMA v hlt v.base x v.base y
    rw [show ∀ a b : Nat × VirtualMemoryArea, [a, b] = [a] ++ [b] from fun _ _ => rfl, absAt_append] at hv
    simp only [absAt_append]
    rw [← hv]
    simp only [Option.or_assoc]

theorem Cut.tiles {a b : Nat} (h : Cut l x l₁ l₂) (ht : Tiles a l b) : ∃ c, Tiles a l₁ c ∧ Tiles c l₂ b := by
  cases h with
  | boundary _ _ h => rw [h] at ht; exact tiles_append.mp ht
  | inside p s v h h1 h2 =>
    rw [h] at ht
    obtain ⟨h3, -, -, h4⟩ := tiles_split.mp ht
    have hlt : x - v.base < v.size := by unfold stop at h2; omega
    refine ⟨x, tiles_split.mpr ⟨h3, rfl, ?_, ?_⟩, rfl, ?_, ?_, ?_⟩
    · show 0 < x - v.base
      omega
    · show v.base + (x - v.base) = x
      omega
    · show v.base + (x - v.base) = x
      omega
    · show 0 < v.size - (x - v.base)
      omega
    · have hstop : x + (v.splitRight (x - v.base)).size = v.stop := by
        show x + (v.size - (x - v.base)) = v.base + v.size
        omega
      rw [hstop]
      exact h4

theorem Cut.canonical (h : Cut l x l₁ l₂) (hc : Canonical l) : Canonical l₁ ∧ Canonical l₂ := by
  cases h with
  | boundary _ _ h =>
    rw [h] at hc
    obtain ⟨h1, h2, -⟩ := List.isChain_append.mp hc
    exact ⟨h1, h2⟩
  | inside p s v h h1 h2 =>
    rw [h] at hc
    obtain ⟨h3, h4, h5⟩ := List.isChain_append.mp hc
    obtain ⟨h6, h7⟩ := List.isChain_cons.mp h4
    have hlt : x - v.base < v.size := by unfold stop at h2; omega
    constructor
    · refine List.isChain_append.mpr ⟨h3, List.isChain_singleton _, ?_⟩
      intro u hu y hy
      cases hy
      exact h5 u hu (v.base, v) rfl
    · refine List.isChain_cons.mpr ⟨?_, h7⟩
      intro y hy
      exact (splitRight_mergeable hlt).not.mpr (h6 y hy)

theorem Cut.append (p : Areas) (h : Cut l x l₁ l₂) : Cut (p ++ l) x (p ++ l₁) l₂ := by
  cases h with
  | boundary _ _ h => exact .boundary _ _ (by rw [h]; simp)
  | inside q s v h h1 h2 =>
    rw [← List.append_assoc]
    exact .inside (p ++ q) s v (by rw [h]; simp) h1 h2

end Cuts

namespace VMManager

section Carve

variable {m : VMManager}

variable {post pre : Areas} {v : VirtualMemoryArea}

/-- The step that both carving functions take at the start of the range. -/
theorem cut_start (ht : m.Tiled) (hm : m.vmaMap = pre ++ (v.base, v) :: post)
    {x : Nat} (hx : v.base ≤ x) (hx' : x < v.stop) :
    ∃ s l₂, Cut ((v.base, v) :: post) x s l₂ ∧ Tiles 0 (pre ++ s) x ∧ Tiles x l₂ maxAddress ∧
      m.splitVMAIf (x ≠ v.base) v.base (x - v.base) = some (x, { m with vmaMap := pre ++ s ++ l₂ }) := by
  have ht' := ht
  unfold Tiled at ht'
  rw [hm] at ht'
  by_cases hne : x = v.base
  · subst hne
    obtain ⟨h1, h2, h3, h4⟩ := tiles_split.mp ht'
    refine ⟨[], (v.base, v) :: post, .boundary _ _ rfl, by simpa using h1, ⟨rfl, rfl, h3, h4⟩, ?_⟩
    rw [splitVMAIf, if_neg (by simp), List.append_nil, ← hm]
  · have hn : 0 < x - v.base := by omega
    have hlt : x - v.base < v.size := by unfold stop at hx'; omega
    have hadd : v.base + (x - v.base) = x := by omega
    have hcut := Cut.inside (l := (v.base, v) :: post) (x := x) [] post v rfl (by omega) hx'
    obtain ⟨c, h1, h2⟩ := (hcut.append pre).tiles ht'
    obtain rfl : x = c := h2.1
    refine ⟨_, _, hcut, h1, h2, ?_⟩
    rw [splitVMAIf, if_pos hne, splitVMA_eq ht hm hn hlt, hadd]
    simp

theorem cut_end (ht : m.Tiled) (hm : m.vmaMap = pre ++ (v.base, v) :: post)
    {n : Nat} (hn : 0 < n) (hn' : n ≤ v.size) :
    ∃ l₂, Cut m.vmaMap (v.base + n) (pre ++ [(v.base, v.splitLeft n)]) l₂ ∧
      Tiles 0 (pre ++ [(v.base, v.splitLeft n)]) (v.base + n) ∧ Tiles (v.base + n) l₂ maxAddress ∧
      (m.splitVMAIf (n ≠ v.size) v.base n).map Prod.snd =
        some { m with vmaMap := pre ++ [(v.base, v.splitLeft n)] ++ l₂ } := by
  have ht' := ht
  unfold Tiled at ht'
  rw [hm] at ht'
  by_cases hne : n = v.size
  · subst hne
    obtain ⟨h1, h2, h3, h4⟩ := tiles_split.mp ht'
    have hv : v.splitLeft v.size = v := rfl
    have happ : m.vmaMap = pre ++ [(v.base, v)] ++ post := by rw [hm]; simp
    refine ⟨post, .boundary _ _ happ, ?_, h4, ?_⟩
    · exact tiles_split.mpr ⟨h1, rfl, h3, rfl⟩
    · rw [splitVMAIf, if_neg (by simp), hv, ← happ]
      rfl
  · have hlt : n < v.size := by omega
    have hsub : v.base + n - v.base = n := by omega
    have hcut := Cut.inside (l := m.vmaMap) (x := v.base + n) pre post v hm (by omega) (by unfold stop; omega)
    rw [hsub] at hcut
    obtain ⟨c, h1, h2⟩ := hcut.tiles ht
    obtain rfl : v.base + n = c := h2.1
    refine ⟨_, hcut, h1, h2, ?_⟩
    rw [splitVMAIf, if_pos hne, splitVMA_eq ht hm hn hlt]
    simp

/-- A range that `CarveVMARange` accepts: aligned, not empty and inside the address space. -/
structure RangeOk (target size : Nat) : Prop where
  alignedSize : size % pageSize = 0
  alignedTarget : target % pageSize = 0
  pos : 0 < size
  fits : target + size ≤ maxAddress

instance (target size : Nat) : Decidable (RangeOk target size) :=
  decidable_of_iff (size % pageSize = 0 ∧ target % pageSize = 0 ∧ 0 < size ∧ target + size ≤ maxAddress)
    ⟨fun h => ⟨h.1, h.2.1, h.2.2.1, h.2.2.2⟩, fun h => ⟨h.1, h.2, h.3, h.4⟩⟩

theorem RangeOk.addU32_eq {target size : Nat} (h : RangeOk target size) : addU32 target size = target + size := by
  have hfits := h.fits
  unfold maxAddress at hfits
  exact Nat.mod_eq_of_lt (by omega)

theorem rangeOk_of_carve {target size : Nat} (ht : target < 2 ^ 32) (hs : size < 2 ^ 32)
    {r : Except ResultCode VMAIter × VMManager} (h : m.carveVMARange target size = some r) : RangeOk target size := by
  unfold carveVMARange at h
  by_cases h1 : size % pageSize = 0
  swap
  · simp [h1] at h
  by_cases h2 : target % pageSize = 0
  swap
  · simp [h1, h2] at h
  by_cases h3 : addU32 target size ≥ target
  swap
  · simp [h1, h2, h3] at h
  by_cases h4 : addU32 target size ≤ maxAddress
  swap
  · simp [h1, h2, h3, h4] at h
  by_cases h5 : size > 0
  swap
  · simp [h1, h2, h3, h4, h5] at h
  refine ⟨h1, h2, h5, ?_⟩
  unfold addU32 at h3 h4
  omega

/-- The pieces of the map after carving the range from `t` to `e`. -/
structure Carved (l : Areas) (t e : Nat) (pre mid tail : Areas) : Prop where
  cuts : ∃ l', Cut l t pre l' ∧ Cut l' e mid tail
  tilesPre : Tiles 0 pre t
  tilesMid : Tiles t mid e
  tilesTail : Tiles e tail maxAddress

theorem Carved.absAt_eq {l pre mid tail : Areas} {t e : Nat} (h : Carved l t e pre mid tail) (x : Nat) :
    absAt (pre ++ mid ++ tail) x = absAt l x := by
  obtain ⟨l', h1, h2⟩ := h.cuts
  have h3 := h1.absAt_eq x
  rw [absAt_append] at h3
  rw [List.append_assoc, absAt_append, h2.absAt_eq, h3]

private theorem mem_range {l : Areas} {b e : Nat} {p : Nat × VirtualMemoryArea} (hp : p ∈ l) (hb : b ≤ p.1)
    (he : p.1 < e) : p ∈ OrderedMap.range l b (OrderedMap.lowerBound l e) := by
  refine List.mem_filter.mpr ⟨hp, ?_⟩
  have hstop : ∀ e', OrderedMap.lowerBound l e = some e' → p.1 < e' := by
    intro e' he'
    obtain ⟨q, hq, rfl⟩ := Option.map_eq_some_iff.mp he'
    have hle : e ≤ q.1 := by simpa using List.find?_some hq
    omega
  simpa using ⟨hb, hstop⟩

private theorem range_covers (ht : m.Tiled)
    (hm : m.vmaMap = pre ++ (v.base, v) :: post) {e x : Nat} (hv : v.base ≤ x) (hx : x < e) (he : e ≤ maxAddress)
    {a : PageAttr} (ha : a ∈ absAt m.vmaMap x) :
    ∃ p ∈ m.vmaMap.range v.base (m.vmaMap.lowerBound e), p.2.attrAt x = a := by
  unfold Tiled at ht
  obtain ⟨pre', w, post', hm', hw, hw'⟩ := ht.find (Nat.zero_le x) (by omega)
  have hmem : (w.base, w) ∈ m.vmaMap := by rw [hm']; simp
  have hbegin : v.base ≤ w.base := by
    have hmem' := hmem
    rw [hm] at hmem' ht
    obtain ⟨h1, -, -, h4⟩ := tiles_split.mp ht
    rcases List.mem_append.mp hmem' with h | h
    · have h2 : w.stop ≤ v.base := (h1.mem h).2.2.2
      omega
    · rcases List.mem_cons.mp h with h | h
      · exact Nat.le_of_eq (congrArg Prod.fst h).symm
      · have h3 : v.stop ≤ w.base := (h4.mem h).2.2.1
        unfold stop at h3
        omega
  refine ⟨(w.base, w), mem_range hmem hbegin (show w.base < e by omega), ?_⟩
  rw [hm'] at ha ht
  rw [absAt_split_mem ht hw hw'] at ha
  exact Option.some_injective _ ha

private theorem splitAtEnd_eq {pre l' : Areas} {t e : Nat} (hm : m.vmaMap = pre ++ l') (hpre : Tiles 0 pre t)
    (hpost : Tiles t l' maxAddress) (hte : t ≤ e) (he : e ≤ maxAddress) :
    ∃ mid tail, Cut l' e mid tail ∧ Tiles t mid e ∧ Tiles e tail maxAddress ∧
      m.splitAtEnd e = some { m with vmaMap := pre ++ mid ++ tail } := by
  unfold splitAtEnd
  by_cases hmax : e = maxAddress
  · -- the range ends at the end of the address space
    rw [findVMA_none _ (Nat.le_of_eq hmax.symm)]
    refine ⟨l', [], .boundary _ _ (by simp), by rw [hmax]; exact hpost, hmax, ?_⟩
    rw [List.append_nil, ← hm]
  · have ht : m.Tiled := by
      unfold Tiled
      rw [hm]
      exact tiles_append.mpr ⟨t, hpre, hpost⟩
    obtain ⟨p, w, q, rfl, hw, hw'⟩ := hpost.find hte (by omega)
    have hm' : m.vmaMap = (pre ++ p) ++ (w.base, w) :: q := by rw [hm]; simp
    obtain ⟨s, tail, hcut, hpre', hpost', heq⟩ := cut_start ht hm' hw hw'
    rw [findVMA_eq ht hm' hw hw']
    refine ⟨p ++ s, tail, hcut.append p, ?_, hpost', ?_⟩
    · rw [List.append_assoc] at hpre'
      obtain ⟨c, h1, h2⟩ := tiles_append.mp hpre'
      rw [hpre.unique h1]
      exact h2
    · simp only [get?_area ht hm', Option.bind_eq_bind, Option.bind_some, heq, pure, List.append_assoc]

/-- `CarveVMARange` fails when an address of the range is free, else it cuts the map at both ends. -/
theorem carveVMARange_eq (ht : m.Tiled) {target size : Nat} (hr : RangeOk target size) :
    m.carveVMARange target size = some (.error .invalidAddressState, m) ∨
      ∃ pre mid tail, Carved m.vmaMap target (target + size) pre mid tail ∧
        (∀ x, target ≤ x → x < target + size → ∀ a ∈ absAt m.vmaMap x, a.type ≠ .free) ∧
        m.carveVMARange target size = some (.ok target, { m with vmaMap := pre ++ mid ++ tail }) := by
  have hpos := hr.pos
  have hfits := hr.fits
  have ht' := ht
  obtain ⟨pre, v, post, hm, hv, hv'⟩ := ht'.find (Nat.zero_le target) (by omega)
  unfold carveVMARange
  simp only [guard, hr.addU32_eq, if_pos hr.alignedSize, if_pos hr.alignedTarget, if_pos (show target + size ≥ target by omega),
    if_pos hfits, if_pos (show size > 0 from hpos), findVMA_eq ht hm hv hv', Option.bind_eq_bind, Option.bind_some, pure]
  split
  · exact Or.inl rfl
  rename_i hany
  right
  obtain ⟨s, l', hcut, hpre, hpost, heq⟩ := cut_start ht hm hv hv'
  obtain ⟨mid, tail, hcut', hmid, htail, heq'⟩ := splitAtEnd_eq (m := { m with vmaMap := pre ++ s ++ l' }) rfl hpre hpost
    (show target ≤ target + size by omega) hfits
  refine ⟨pre ++ s, mid, tail, ⟨⟨l', by rw [hm]; exact hcut.append pre, hcut'⟩, hpre, hmid, htail⟩, ?_, ?_⟩
  · intro x hx hx' a ha hfree
    obtain ⟨p, hp, rfl⟩ := range_covers ht hm (by omega) hx' hfits ha
    exact hany (List.any_eq_true.mpr ⟨p, hp, decide_eq_true hfree⟩)
  · simp only [get?_area ht hm, Option.bind_some, heq, heq']

private theorem splitVMA_none {vma : VMAIter} (hget : m.vmaMap.get? vma = some v) {n : Nat}
    (hn : n = 0 ∨ v.size ≤ n) : m.splitVMA vma n = none := by
  unfold splitVMA
  simp only [hget, Option.bind_eq_bind, Option.bind_some, guard]
  by_cases h : n < v.size
  · have h0 : ¬ n > 0 := by omega
    simp [h, h0]
  · simp [h]

/-- The free area that `CarveVMA` makes, between the areas before and after it. -/
structure CarvedFree (l : Areas) (base size : Nat) (pre : Areas) (w : VirtualMemoryArea) (post : Areas) : Prop where
  base_eq : w.base = base
  size_eq : w.size = size
  free : w.type = .free
  tiles : Tiles 0 (pre ++ (w.base, w) :: post) maxAddress
  abs : ∀ x, absAt (pre ++ (w.base, w) :: post) x = absAt l x
  canonical : Canonical l → Canonical pre ∧ Canonical post

private theorem splitVMAIf_twice (ht : m.Tiled)
    (hm : m.vmaMap = pre ++ (v.base, v) :: post) (hfree : v.type = .free) {start size : Nat} (hpos : 0 < size)
    (hfit : start + size ≤ v.size) :
    ∃ pre' w post', CarvedFree m.vmaMap (v.base + start) size pre' w post' ∧
      Cut m.vmaMap (v.base + (start + size)) (pre ++ [(v.base, v.splitLeft (start + size))]) post' ∧
      (do
        let (_, m) ← m.splitVMAIf (start + size ≠ v.size) v.base (start + size)
        let (handle, m) ← m.splitVMAIf (start ≠ 0) v.base start
        return (Except.ok handle, m)) =
      some ((Except.ok (v.base + start) : Except ResultCode VMAIter),
        { m with vmaMap := pre' ++ (w.base, w) :: post' }) := by
  obtain ⟨l₂, hcut, h1, h2, heq⟩ := cut_end ht hm (show 0 < start + size by omega) hfit
  let u := v.splitLeft (start + size)
  obtain ⟨⟨k, m'⟩, hsplit, rfl⟩ := Option.map_eq_some_iff.mp heq
  have ht₁ : VMManager.Tiled { m with vmaMap := pre ++ [(u.base, u)] ++ l₂ } := tiles_append.mpr ⟨_, h1, h2⟩
  simp only [hsplit, Option.bind_eq_bind, Option.bind_some]
  by_cases h0 : start = 0
  · subst h0
    refine ⟨pre, u, l₂, ⟨rfl, by show 0 + size = size; omega, hfree, ?_, ?_, ?_⟩, hcut, ?_⟩
    · have := ht₁
      unfold Tiled at this
      simpa using this
    · intro x
      rw [← hcut.absAt_eq x]
      simp [u, splitLeft]
    · intro hc
      obtain ⟨hc1, hc2⟩ := hcut.canonical hc
      exact ⟨(List.isChain_append.mp hc1).1, hc2⟩
    · rw [splitVMAIf, if_neg (by simp)]
      simp [u, splitLeft, pure]
  · have hlt : start < u.size := by show start < start + size; omega
    have hm₁ : pre ++ [(u.base, u)] ++ l₂ = pre ++ (u.base, u) :: l₂ := by simp
    have heq₁ := splitVMA_eq ht₁ hm₁ (show 0 < start by omega) hlt
    have hcut₁ : Cut (pre ++ [(u.base, u)]) (u.base + start) (pre ++ [(u.base, u.splitLeft start)])
        [(u.base + start, u.splitRight start)] := by
      have h := Cut.inside (l := pre ++ [(u.base, u)]) (x := u.base + start) pre [] u rfl (by omega)
        (by unfold stop; omega)
      rwa [show u.base + start - u.base = start by omega] at h
    refine ⟨pre ++ [(u.base, u.splitLeft start)], u.splitRight start, l₂, ⟨rfl, ?_, hfree, ?_, ?_, ?_⟩, hcut, ?_⟩
    · show start + size - start = size
      omega
    · obtain ⟨c, h3, h4⟩ := hcut₁.tiles h1
      have := tiles_append.mpr ⟨c, h3, h4⟩
      have := tiles_append.mpr ⟨_, this, h2⟩
      rw [splitRight_base]
      simpa using this
    · intro x
      have h3 := hcut.absAt_eq x
      rw [absAt_append] at h3
      have h4 := hcut₁.absAt_eq x
      rw [show pre ++ [(u.base, u.splitLeft start)] ++ ((u.splitRight start).base, u.splitRight start) :: l₂ =
        (pre ++ [(u.base, u.splitLeft start)] ++ [(u.base + start, u.splitRight start)]) ++ l₂ by simp; rfl,
        absAt_append, h4]
      exact h3
    · intro hc
      obtain ⟨hc1, hc2⟩ := hcut.canonical hc
      exact ⟨(hcut₁.canonical hc1).1, hc2⟩
    · rw [splitVMAIf, if_pos h0]
      show Option.bind (VMManager.splitVMA { m with vmaMap := pre ++ [(u.base, u)] ++ l₂ } u.base start) _ = _
      rw [heq₁, splitRight_base]
      simp only [Option.bind_some, pure, List.append_assoc, List.singleton_append]
      rfl

/-- `CarveVMA` fails without a change, trips an assertion or makes a free area of the given size.  It trips no
assertion when the range is not empty and does not wrap. -/
theorem carveVMA_eq (ht : m.Tiled) {base size : Nat} (hb : base % pageSize = 0) (hs : size % pageSize = 0)
    (hs32 : size < 2 ^ 32) :
    (∃ e, e ≠ .success ∧ m.carveVMA base size = some (.error e, m)) ∨
      (m.carveVMA base size = none ∧ (size = 0 ∨ 2 ^ 32 ≤ base + size)) ∨
      ∃ pre w post, CarvedFree m.vmaMap base size pre w post ∧
        m.carveVMA base size = some (.ok base, { m with vmaMap := pre ++ (w.base, w) :: post }) := by
  unfold carveVMA
  simp only [guard, if_pos hb, if_pos hs, Option.bind_eq_bind, Option.bind_some, pure]
  by_cases hmax : maxAddress ≤ base
  · rw [findVMA_none m hmax]
    exact Or.inl ⟨_, by decide, rfl⟩
  have ht' := ht
  unfold Tiled at ht'
  obtain ⟨pre, v, post, hm, hv, hv'⟩ := ht'.find (Nat.zero_le base) (by omega)
  rw [findVMA_eq ht hm hv hv']
  simp only [get?_area ht hm, Option.bind_some]
  by_cases hfree : v.type = .free
  swap
  · rw [if_pos hfree]
    exact Or.inl ⟨_, by decide, rfl⟩
  rw [if_neg (not_not.mpr hfree)]
  by_cases hend : addU32 (base - v.base) size > v.size
  · rw [if_pos hend]
    exact Or.inl ⟨_, by decide, rfl⟩
  rw [if_neg hend]
  right
  have hstop : v.stop ≤ maxAddress := by
    rw [hm] at ht'
    exact (tiles_split.mp ht').2.2.2.le
  have hsize : base - v.base < v.size := by unfold stop at hv'; omega
  have hsmall : v.size ≤ 2 ^ 30 := by unfold stop maxAddress at hstop; omega
  by_cases hlt : base - v.base < addU32 (base - v.base) size
  · -- the range does not wrap
    right
    have hadd : addU32 (base - v.base) size = base - v.base + size := by unfold addU32 at *; omega
    rw [hadd] at hend hlt ⊢
    obtain ⟨pre', w, post', hc, -, heq⟩ := splitVMAIf_twice ht hm hfree (show 0 < size by omega)
      (Nat.not_lt.mp hend)
    rw [show v.base + (base - v.base) = base by omega] at hc heq
    exact ⟨pre', w, post', hc, heq⟩
  · left
    constructor
    · by_cases hz : addU32 (base - v.base) size = 0
      · rw [hz, splitVMAIf, if_pos (by omega), splitVMA_none (get?_area ht hm) (Or.inl rfl)]
        rfl
      · obtain ⟨l₂, hcut, h1, h2, heq⟩ := cut_end ht hm (show 0 < addU32 (base - v.base) size by omega)
          (Nat.not_lt.mp hend)
        obtain ⟨⟨k, m'⟩, hsplit, rfl⟩ := Option.map_eq_some_iff.mp heq
        let u := v.splitLeft (addU32 (base - v.base) size)
        have ht₁ : VMManager.Tiled { m with vmaMap := pre ++ [(u.base, u)] ++ l₂ } := tiles_append.mpr ⟨_, h1, h2⟩
        have hget := get?_area ht₁ (show pre ++ [(u.base, u)] ++ l₂ = pre ++ (u.base, u) :: l₂ by simp)
        rw [hsplit]
        simp only [Option.bind_some]
        rw [splitVMAIf, if_pos (by omega)]
        show Option.bind (VMManager.splitVMA { m with vmaMap := pre ++ [(u.base, u)] ++ l₂ } u.base _) _ = none
        rw [splitVMA_none hget (Or.inr (Nat.not_lt.mp hlt))]
        rfl
    · unfold addU32 at hlt
      omega

/-- `CarveVMA` inside a free area leaves what is after the range as one free area. -/
theorem carveVMA_rest (ht : m.Tiled)
    (hm : m.vmaMap = pre ++ (v.base, v) :: post) (hfree : v.type = .free) {base size : Nat}
    (hb : base % pageSize = 0) (hs : size % pageSize = 0) (hpos : 0 < size) (hle : v.base ≤ base)
    (hfits : base + size ≤ v.stop) : ∃ pre' w post', CarvedFree m.vmaMap base size pre' w post' ∧
      (base + size < v.stop → ∃ r, (r.base, r) ∈ post' ∧ r.type = .free ∧ r.base = base + size ∧ r.stop = v.stop) ∧
      m.carveVMA base size = some (.ok base, { m with vmaMap := pre' ++ (w.base, w) :: post' }) := by
  have hstop : v.stop ≤ maxAddress := by
    unfold Tiled at ht
    rw [hm] at ht
    exact (tiles_split.mp ht).2.2.2.le
  have hsmall : maxAddress < 2 ^ 32 := by decide
  have hadd : addU32 (base - v.base) size = base - v.base + size := Nat.mod_eq_of_lt (by omega)
  have hend : base - v.base + size ≤ v.size := by
    unfold stop at hfits
    omega
  obtain ⟨pre', w, post', hc, hcut, heq⟩ := splitVMAIf_twice ht hm hfree hpos hend
  rw [show v.base + (base - v.base) = base by omega] at hc heq
  rw [show v.base + (base - v.base + size) = base + size by omega] at hcut
  refine ⟨pre', w, post', hc, ?_, ?_⟩
  · intro hlt
    generalize hl : pre ++ [(v.base, v.splitLeft (base - v.base + size))] = l₁ at hcut
    cases hcut with
    | boundary _ _ h =>
      -- the area would not have been cut
      rw [← hl, hm, List.append_assoc] at h
      have hleft : v = v.splitLeft (base - v.base + size) := by
        have h := List.append_cancel_left h
        exact congrArg Prod.snd (List.cons.inj h).1
      have hsize : v.size = base - v.base + size := congrArg VirtualMemoryArea.size hleft
      unfold stop at hlt
      omega
    | inside p s v' h h1 h2 =>
      obtain ⟨rfl, hlast⟩ := List.append_inj' hl rfl
      obtain rfl : v = v' := by
        rw [hm] at h
        have h := List.append_cancel_left h
        exact congrArg Prod.snd (List.cons.inj h).1
      refine ⟨v.splitRight (base + size - v.base), ?_, hfree, ?_, ?_⟩
      · rw [splitRight_base, show v.base + (base + size - v.base) = base + size by omega]
        exact List.mem_cons_self
      · rw [splitRight_base]
        omega
      · apply splitRight_stop
        unfold stop at hlt
        omega
  · unfold carveVMA
    simp only [guard, if_pos hb, if_pos hs, findVMA_eq ht hm hle (show base < v.stop by omega), get?_area ht hm, hfree,
      hadd, if_neg (show ¬ base - v.base + size > v.size by omega), ne_eq, not_true_eq_false, if_false,
      Option.bind_eq_bind, Option.bind_some, pure]
    exact heq

end Carve

end VMManager

end SweepDSEmu
