import SweepDSEmu.Kernel.VMManagerUpdate

/-!
# The address space refines a page map

For the clients of a `VMManager` the address space is a map from pages to attributes.  A successful call changes the
pages of its range to the requested values, a failed one changes nothing; this and the tiling hold in every run.

The map of areas is canonical as long as no `ReprotectRange` or `ChangeMemoryState` meets a straddling pair, see
`Straddles`.
-/

namespace SweepDSEmu

open VirtualMemoryArea

namespace VMManager

/-- A call that changes the address space. -/
inductive Op where
  | mapBackingMemory (target memory size : Nat) (state : MemoryState)
  | unmapRange (target size : Nat)
  | reprotectRange (target size : Nat) (newPerms : VMAPermission)
  | changeMemoryState (target size : Nat) (expectedState : MemoryState) (expectedPerms : VMAPermission)
      (newState : MemoryState) (newPerms : VMAPermission)

namespace Op

def target : Op → Nat
  | .mapBackingMemory target _ _ _ => target
  | .unmapRange target _ => target
  | .reprotectRange target _ _ => target
  | .changeMemoryState target _ _ _ _ _ => target

def size : Op → Nat
  | .mapBackingMemory _ _ size _ => size
  | .unmapRange _ size => size
  | .reprotectRange _ size _ => size
  | .changeMemoryState _ size _ _ _ _ => size

/-- The arguments are 32-bit numbers. -/
def IsU32 (op : Op) : Prop := op.target < 2 ^ 32 ∧ op.size < 2 ^ 32

instance : DecidablePred IsU32 := fun _ => inferInstanceAs (Decidable (_ ∧ _))

/-- The attributes that the call asks for at an address of its range, where it has the attributes `a`. -/
def requested (op : Op) (x : Nat) (a : PageAttr) : PageAttr :=
  match op with
  | .mapBackingMemory target memory _ state =>
    ⟨.backingMemory, VMAPermission.readWrite, state, memory + (x - target)⟩
  | .unmapRange _ _ => ⟨.free, VMAPermission.none, .free, 0⟩
  | .reprotectRange _ _ newPerms => { a with permissions := newPerms }
  | .changeMemoryState _ _ _ _ newState newPerms => { a with permissions := newPerms, meminfoState := newState }

/-- The arguments satisfy the assertions of the function. -/
def InRange : Op → Prop
  | .mapBackingMemory target memory size _ =>
    target % pageSize = 0 ∧ size % pageSize = 0 ∧ memory ≠ 0 ∧ 0 < size ∧ target + size < 2 ^ 32
  | .unmapRange target size => RangeOk target size
  | .reprotectRange target size _ => RangeOk target size
  | .changeMemoryState target size _ _ _ _ => RangeOk target size

instance : DecidablePred InRange
  | .mapBackingMemory .. => inferInstanceAs (Decidable (_ ∧ _ ∧ _ ≠ _ ∧ _ ∧ _))
  | .unmapRange .. => inferInstanceAs (Decidable (RangeOk _ _))
  | .reprotectRange .. => inferInstanceAs (Decidable (RangeOk _ _))
  | .changeMemoryState .. => inferInstanceAs (Decidable (RangeOk _ _))

/-- The call meets no straddling pair. -/
def Safe (m : VMManager) : Op → Prop
  | .reprotectRange target size newPerms => ¬ Straddles (reprotected newPerms) target (target + size) m.vmaMap
  | .changeMemoryState target size _ _ newState newPerms =>
    ¬ Straddles (changed newState newPerms) target (target + size) m.vmaMap
  | _ => True

end Op

def exec (m : VMManager) : Op → Option (ResultCode × VMManager)
  | .mapBackingMemory target memory size state =>
    (m.mapBackingMemory target memory size state).map fun
      | (.ok _, m) => (.success, m)
      | (.error e, m) => (e, m)
  | .unmapRange target size => m.unmapRange target size
  | .reprotectRange target size newPerms => m.reprotectRange target size newPerms
  | .changeMemoryState target size expectedState expectedPerms newState newPerms =>
    m.changeMemoryState target size expectedState expectedPerms newState newPerms

/-- Runs a list of calls; `none` when an assertion fails. -/
def run (m : VMManager) : List Op → Option VMManager
  | [] => some m
  | op :: ops => (m.exec op).bind fun r => r.2.run ops

/-- No call of the run meets a straddling pair. -/
def SafeRun (m : VMManager) : List Op → Prop
  | [] => True
  | op :: ops => op.Safe m ∧ ∀ r, m.exec op = some r → SafeRun r.2 ops

def pageMap (m : VMManager) (page : Nat) : Option PageAttr := absAt m.vmaMap (page * pageSize)

def RefinesPageMap (m : VMManager) (op : Op) (r : ResultCode) (m' : VMManager) : Prop :=
  if r = .success then
    ∀ page, m'.pageMap page =
      if op.target ≤ page * pageSize ∧ page * pageSize < op.target + op.size then
        (m.pageMap page).map (op.requested (page * pageSize))
      else m.pageMap page
  else ∀ page, m'.pageMap page = m.pageMap page

theorem reprotected_update (p : VMAPermission) : Update (reprotected p) fun a => { a with permissions := p } where
  base _ := rfl
  size _ := rfl
  attr _ _ := rfl
  absorb v w x h := by
    have hp : p = w.permissions := h.1
    unfold attrAt
    rw [hp]
  splitRight v n z h := by
    have := splitRight_mergeable (v := reprotected p v) (w := z) h
    exact this

theorem changed_update (s : MemoryState) (p : VMAPermission) :
    Update (changed s p) fun a => { a with permissions := p, meminfoState := s } where
  base _ := rfl
  size _ := rfl
  attr _ _ := rfl
  absorb v w x h := by
    have hp : p = w.permissions := h.1
    have hs : s = w.meminfoState := h.2.1
    unfold attrAt
    rw [hp, hs]
  splitRight v n z h := by
    have := splitRight_mergeable (v := changed s p v) (w := z) h
    exact this

theorem unmapped_update : Update unmapped fun _ => ⟨.free, VMAPermission.none, .free, 0⟩ where
  base _ := rfl
  size _ := rfl
  attr _ _ := rfl
  absorb v w x h := by
    obtain ⟨hp, hs, ht, -⟩ := h
    have hp : VMAPermission.none = w.permissions := hp
    have hs : MemoryState.free = w.meminfoState := hs
    have ht : VMAType.free = w.type := ht
    unfold attrAt
    rw [← hp, ← hs, ← ht]
  splitRight v n z h := by
    have := splitRight_mergeable (v := unmapped v) (w := z) h
    exact this

/-- What a call does to a tiled address space. -/
structure StepOk (m : VMManager) (op : Op) (r : ResultCode) (m' : VMManager) : Prop where
  locked : m'.isLocked = m.isLocked
  tiled : m'.Tiled
  changes : r = .success → ∀ x, absAt m'.vmaMap x =
    if op.target ≤ x ∧ x < op.target + op.size then (absAt m.vmaMap x).map (op.requested x) else absAt m.vmaMap x
  keeps : r ≠ .success → ∀ x, absAt m'.vmaMap x = absAt m.vmaMap x
  canonical : Canonical m.vmaMap → op.Safe m → Canonical m'.vmaMap

variable {m : VMManager}

private theorem StepOk.error (ht : m.Tiled) (op : Op) {r : ResultCode} (hr : r ≠ .success) : StepOk m op r m where
  locked := rfl
  tiled := ht
  changes h := absurd h hr
  keeps _ _ := rfl
  canonical hc _ := hc

private theorem StepOk.ofRange {f : VirtualMemoryArea → VirtualMemoryArea} {F : PageAttr → PageAttr} {m' : VMManager}
    {op : Op} (h : RangeUpdated f F op.target (op.target + op.size) m m') (hF : ∀ x, op.requested x = F)
    (hsafe : op.Safe m → ¬ Straddles f op.target (op.target + op.size) m.vmaMap) : StepOk m op .success m' where
  locked := h.locked
  tiled := h.tiled
  changes _ x := by rw [h.abs x, hF x]
  keeps hne := absurd rfl hne
  canonical hc hs := h.canonical hc (hsafe hs)

private theorem not_straddles_unmapped {t e : Nat} (ht : m.Tiled)
    (hfree : ∀ x, t ≤ x → x < e → ∀ a ∈ absAt m.vmaMap x, a.type ≠ .free) : ¬ Straddles unmapped t e m.vmaMap := by
  rintro ⟨p, a, ⟨k, b⟩, s, hm, h1, h2, h3, h4⟩
  have happ : m.vmaMap = (p ++ [a]) ++ (k, b) :: s := by rw [hm]; simp
  unfold Tiled at ht
  rw [happ] at ht hfree
  have hb : b.base < b.stop := Nat.lt_trans h2 h3
  have hmem : b.attrAt b.base ∈ absAt (p ++ [a] ++ (k, b) :: s) b.base := absAt_split_mem ht le_rfl hb
  exact hfree b.base (Nat.le_of_lt h1) h2 _ hmem h4.2.2.1.symm

private theorem reprotectRange_ok (ht : m.Tiled) (hl : m.isLocked = false) {target size : Nat} (p : VMAPermission)
    (hr : RangeOk target size) :
    ∃ r m', m.reprotectRange target size p = some (r, m') ∧ StepOk m (.reprotectRange target size p) r m' := by
  unfold reprotectRange
  simp only [guard, if_pos hl, Option.bind_eq_bind, hr.addU32_eq]
  rcases carveVMARange_eq ht hr with h | ⟨pre, mid, tail, hc, -, h⟩
  · exact ⟨.invalidAddressState, m, by rw [h]; rfl, StepOk.error ht _ (by decide)⟩
  · have hpos := hr.pos
    obtain ⟨m', hrun, hup⟩ := updateRange_carved (reprotected_update p) hc (by omega)
    refine ⟨.success, m', ?_, StepOk.ofRange hup (fun _ => rfl) fun hs => hs⟩
    rw [h]
    simp only [pure, Option.bind_some, hrun]

private theorem unmapRange_ok (ht : m.Tiled) (hl : m.isLocked = false) {target size : Nat} (hr : RangeOk target size) :
    ∃ r m', m.unmapRange target size = some (r, m') ∧ StepOk m (.unmapRange target size) r m' := by
  unfold unmapRange
  simp only [guard, if_pos hl, Option.bind_eq_bind, hr.addU32_eq]
  rcases carveVMARange_eq ht hr with h | ⟨pre, mid, tail, hc, hfree, h⟩
  · exact ⟨.invalidAddressState, m, by rw [h]; rfl, StepOk.error ht _ (by decide)⟩
  · have hpos := hr.pos
    obtain ⟨m', hrun, hup⟩ := updateRange_carved unmapped_update hc (by omega)
    refine ⟨.success, m', ?_, StepOk.ofRange hup (fun _ => rfl) fun _ => not_straddles_unmapped ht hfree⟩
    -- the freed areas have been merged into one
    obtain ⟨l, v, l', hm', hv, hv'⟩ := hup.covers fun v w => ⟨⟨rfl, rfl, rfl, fun h => nomatch h⟩, rfl⟩
    have hsize : v.size ≥ size := by unfold stop at hv'; omega
    rw [h]
    simp only [pure, Option.bind_some, hrun, findVMA_eq hup.tiled hm' hv (by omega), get?_area hup.tiled hm',
      if_pos hsize]

private theorem changeMemoryState_ok (ht : m.Tiled) (hl : m.isLocked = false) {target size : Nat}
    (es ns : MemoryState) (ep np : VMAPermission) (hr : RangeOk target size) :
    ∃ r m', m.changeMemoryState target size es ep ns np = some (r, m') ∧
      StepOk m (.changeMemoryState target size es ep ns np) r m' := by
  have hpos := hr.pos
  have hfits := hr.fits
  have ht' := ht
  obtain ⟨pre, v, post, hm, hv, hv'⟩ := ht'.find (Nat.zero_le target) (by omega)
  unfold changeMemoryState
  simp only [hl, Bool.false_eq_true, if_false, findVMA_eq ht hm hv hv', hr.addU32_eq]
  split
  · exact ⟨.invalidAddressState, m, rfl, StepOk.error ht _ (by decide)⟩
  · rcases carveVMARange_eq ht hr with h | ⟨pre, mid, tail, hc, -, h⟩
    · exact ⟨.invalidAddressState, m, by rw [h]; rfl, StepOk.error ht _ (by decide)⟩
    · obtain ⟨m', hrun, hup⟩ := updateRange_carved (changed_update ns np) hc (by omega)
      refine ⟨.success, m', ?_, StepOk.ofRange hup (fun _ => rfl) fun hs => hs⟩
      rw [h]
      simp only [pure, Option.bind_eq_bind, Option.bind_some, hrun]

private theorem absAt_mapped {l pre post : Areas} {w : VirtualMemoryArea} {base size memory : Nat} {state : MemoryState}
    (hc : CarvedFree l base size pre w post) (x : Nat) :
    absAt (pre ++ ((mapped memory state w).base, mapped memory state w) :: post) x =
      if base ≤ x ∧ x < base + size then
        (absAt l x).map ((Op.mapBackingMemory base memory size state).requested x)
      else absAt l x := by
  have hb := hc.base_eq
  have hsz := hc.size_eq
  have hstop : w.stop = base + size := by unfold stop; omega
  have hbase : (mapped memory state w).base = base := hb
  have hstop' : (mapped memory state w).stop = base + size := hstop
  obtain ⟨h1, -, -, -⟩ := tiles_split.mp hc.tiles
  rw [← hc.abs x, absAt_append, absAt_cons, hstop', hbase, absAt_append, absAt_cons, hstop, hb]
  by_cases hx : base ≤ x ∧ x < base + size
  · rw [if_pos hx, if_pos hx, if_pos hx, h1.absAt_outside (Or.inr (by omega))]
    simp only [Option.none_or, Option.map_some, Op.requested, attrAt, mapped, hb]
  · rw [if_neg hx, if_neg hx, if_neg hx]

theorem mapBackingMemory_of_carve (hl : m.isLocked = false) {target memory size : Nat} (state : MemoryState)
    (hmem : memory ≠ 0) {pre post : Areas} {w : VirtualMemoryArea}
    (hc : CarvedFree m.vmaMap target size pre w post)
    (h : m.carveVMA target size = some (.ok target, { m with vmaMap := pre ++ (w.base, w) :: post })) :
    Tiles 0 (pre ++ ((mapped memory state w).base, mapped memory state w) :: post) maxAddress ∧
      m.mapBackingMemory target memory size state =
        some (.ok (merged pre (mapped memory state w) post).2.1.base,
          { m with vmaMap := mergedAreas pre (mapped memory state w) post }) := by
  let m₁ : VMManager := { m with vmaMap := pre ++ (w.base, w) :: post }
  have hget : OrderedMap.get? (pre ++ (w.base, w) :: post) target = some w := by
    rw [← hc.base_eq]
    exact OrderedMap.get?_split hc.tiles.sorted
  obtain ⟨ht', heq⟩ := updateVMA_eq (m := m₁) (f := mapped memory state) hc.tiles rfl rfl rfl
  have hbase : w.base = target := hc.base_eq
  rw [hbase] at heq
  refine ⟨ht', ?_⟩
  unfold mapBackingMemory
  simp only [guard, if_pos hl, if_pos hmem, Option.bind_eq_bind]
  rw [h]
  simp only [Option.bind_some, hget, if_pos hc.size_eq, pure]
  rw [show ({ m with vmaMap := pre ++ (w.base, w) :: post } : VMManager) = m₁ from rfl, heq]
  rfl

/-- The effect of `MapBackingMemory`, with the key of the area that it returns. -/
theorem mapBackingMemory_eq (ht : m.Tiled) (hl : m.isLocked = false) {target memory size : Nat} (state : MemoryState)
    (hmem : memory ≠ 0) (hb : target % pageSize = 0) (hs : size % pageSize = 0) (hs32 : size < 2 ^ 32) :
    (∃ e, e ≠ .success ∧ m.mapBackingMemory target memory size state = some (.error e, m)) ∨
      (m.mapBackingMemory target memory size state = none ∧ (size = 0 ∨ 2 ^ 32 ≤ target + size)) ∨
      ∃ pre w post, CarvedFree m.vmaMap target size pre w post ∧
        Tiles 0 (pre ++ ((mapped memory state w).base, mapped memory state w) :: post) maxAddress ∧
        m.mapBackingMemory target memory size state =
          some (.ok (merged pre (mapped memory state w) post).2.1.base,
            { m with vmaMap := mergedAreas pre (mapped memory state w) post }) := by
  rcases carveVMA_eq ht hb hs hs32 with ⟨e, he, h⟩ | ⟨h, hrange⟩ | ⟨pre, w, post, hc, h⟩
  · refine Or.inl ⟨e, he, ?_⟩
    unfold mapBackingMemory
    simp only [guard, if_pos hl, if_pos hmem, Option.bind_eq_bind, h]
    rfl
  · refine Or.inr (Or.inl ⟨?_, hrange⟩)
    unfold mapBackingMemory
    simp only [guard, if_pos hl, if_pos hmem, Option.bind_eq_bind, h]
    rfl
  · exact Or.inr (Or.inr ⟨pre, w, post, hc, mapBackingMemory_of_carve hl state hmem hc h⟩)

private theorem mapBackingMemory_ok (ht : m.Tiled) (hl : m.isLocked = false) {target memory size : Nat}
    (state : MemoryState) (hmem : memory ≠ 0) (hb : target % pageSize = 0) (hs : size % pageSize = 0)
    (hs32 : size < 2 ^ 32) :
    (m.mapBackingMemory target memory size state = none ∧ (size = 0 ∨ 2 ^ 32 ≤ target + size)) ∨
      ∃ r m', m.exec (.mapBackingMemory target memory size state) = some (r, m') ∧
        StepOk m (.mapBackingMemory target memory size state) r m' := by
  unfold exec
  rcases mapBackingMemory_eq ht hl state hmem hb hs hs32 with ⟨e, he, h⟩ | hn | ⟨pre, w, post, hc, ht', h⟩
  · exact Or.inr ⟨e, m, by simp only [h, Option.map_some], StepOk.error ht _ he⟩
  · exact Or.inl hn
  · obtain ⟨htm, habs⟩ := mergedAreas_tiles ht'
    refine Or.inr ⟨.success, { m with vmaMap := mergedAreas pre (mapped memory state w) post },
      by simp only [h, Option.map_some], rfl, htm, ?_, ?_, ?_⟩
    · intro _ x
      exact (habs x).trans (absAt_mapped hc x)
    · exact fun hne => absurd rfl hne
    · intro hcan _
      obtain ⟨h1, h2⟩ := hc.canonical hcan
      exact mergedAreas_canonical h1 h2

theorem mapBackingMemory_guards {target memory size : Nat} {state : MemoryState}
    {r : Except ResultCode VMAIter × VMManager} (h : m.mapBackingMemory target memory size state = some r) :
    memory ≠ 0 ∧ target % pageSize = 0 ∧ size % pageSize = 0 := by
  unfold mapBackingMemory carveVMA at h
  by_contra hcon
  by_cases h0 : m.isLocked = false
  · by_cases h1 : memory = 0
    · simp [h0, h1] at h
    · by_cases h2 : size % pageSize = 0
      · have h3 : ¬ target % pageSize = 0 := fun h3 => hcon ⟨h1, h3, h2⟩
        simp [h0, h1, h2, h3] at h
      · simp [h0, h1, h2] at h
  · simp [h0] at h

theorem exec_ok (ht : m.Tiled) (hl : m.isLocked = false) {op : Op} (hop : op.IsU32) {r : ResultCode} {m' : VMManager}
    (h : m.exec op = some (r, m')) : StepOk m op r m' := by
  -- a call whose effect is known has no other effect
  have hunique : (∃ r₁ m₁, m.exec op = some (r₁, m₁) ∧ StepOk m op r₁ m₁) → StepOk m op r m' := by
    rintro ⟨r₁, m₁, h₁, hok⟩
    rw [h] at h₁
    cases h₁
    exact hok
  cases op with
  | mapBackingMemory target memory size state =>
    have hguards : memory ≠ 0 ∧ target % pageSize = 0 ∧ size % pageSize = 0 := by
      obtain ⟨c, hc, -⟩ := Option.map_eq_some_iff.mp h
      exact mapBackingMemory_guards hc
    rcases mapBackingMemory_ok ht hl state hguards.1 hguards.2.1 hguards.2.2 hop.2 with ⟨hn, -⟩ | hok
    · have h : (m.mapBackingMemory target memory size state).map _ = some (r, m') := h
      rw [hn] at h
      cases h
    · exact hunique hok
  | unmapRange target size =>
    obtain ⟨c, hc, -⟩ : ∃ c, m.carveVMARange target size = some c ∧ True := by
      unfold exec unmapRange at h
      obtain ⟨-, -, h⟩ := Option.bind_eq_some_iff.mp h
      obtain ⟨c, hc, -⟩ := Option.bind_eq_some_iff.mp h
      exact ⟨c, hc, trivial⟩
    exact hunique (unmapRange_ok ht hl (rangeOk_of_carve hop.1 hop.2 hc))
  | reprotectRange target size p =>
    obtain ⟨c, hc, -⟩ : ∃ c, m.carveVMARange target size = some c ∧ True := by
      unfold exec reprotectRange at h
      obtain ⟨-, -, h⟩ := Option.bind_eq_some_iff.mp h
      obtain ⟨c, hc, -⟩ := Option.bind_eq_some_iff.mp h
      exact ⟨c, hc, trivial⟩
    exact hunique (reprotectRange_ok ht hl p (rangeOk_of_carve hop.1 hop.2 hc))
  | changeMemoryState target size es ep ns np =>
    have h' := h
    unfold exec changeMemoryState at h'
    simp only [hl, Bool.false_eq_true, if_false] at h'
    split at h'
    · cases h'
      exact StepOk.error ht _ (by decide)
    · split at h'
      · cases h'
        exact StepOk.error ht _ (by decide)
      · obtain ⟨c, hc, -⟩ := Option.bind_eq_some_iff.mp h'
        exact hunique (changeMemoryState_ok ht hl es ns ep np (rangeOk_of_carve hop.1 hop.2 hc))

/-- A call that satisfies the assertions on its arguments trips no other one. -/
theorem exec_isSome (ht : m.Tiled) (hl : m.isLocked = false) {op : Op} (hop : op.InRange) : (m.exec op).isSome := by
  cases op with
  | mapBackingMemory target memory size state =>
    obtain ⟨h1, h2, h3, h4, h5⟩ := hop
    rcases mapBackingMemory_ok ht hl state h3 h1 h2 (by omega) with ⟨-, hn⟩ | ⟨r, m', h, -⟩
    · omega
    · rw [h]; rfl
  | unmapRange target size =>
    obtain ⟨r, m', h, -⟩ := unmapRange_ok ht hl hop
    show (m.unmapRange target size).isSome
    rw [h]; rfl
  | reprotectRange target size p =>
    obtain ⟨r, m', h, -⟩ := reprotectRange_ok ht hl p hop
    show (m.reprotectRange target size p).isSome
    rw [h]; rfl
  | changeMemoryState target size es ep ns np =>
    obtain ⟨r, m', h, -⟩ := changeMemoryState_ok ht hl es ns ep np hop
    show (m.changeMemoryState target size es ep ns np).isSome
    rw [h]; rfl

private theorem reset_ok : reset.Tiled ∧ reset.isLocked = false ∧ Canonical reset.vmaMap :=
  ⟨⟨rfl, rfl, by decide, rfl⟩, rfl, List.isChain_singleton _⟩

private theorem run_ok {ops : List Op} (hops : ∀ op ∈ ops, op.IsU32) (ht : m.Tiled) (hl : m.isLocked = false)
    {m' : VMManager} (h : m.run ops = some m') :
    m'.Tiled ∧ m'.isLocked = false ∧ (Canonical m.vmaMap → SafeRun m ops → Canonical m'.vmaMap) := by
  induction ops generalizing m with
  | nil =>
    cases h
    exact ⟨ht, hl, fun hc _ => hc⟩
  | cons op ops ih =>
    obtain ⟨⟨r, m₁⟩, hstep, hrest⟩ := Option.bind_eq_some_iff.mp h
    have hok := exec_ok ht hl (hops op List.mem_cons_self) hstep
    obtain ⟨h1, h2, h3⟩ := ih (fun op hop => hops op (List.mem_cons_of_mem _ hop)) hok.tiled
      (hok.locked.trans hl) hrest
    exact ⟨h1, h2, fun hc hs => h3 (hok.canonical hc hs.1) (hs.2 _ hstep)⟩

structure AddressSpaceOk (m : VMManager) : Prop where
  tiled : m.Tiled
  canonical : Canonical m.vmaMap
  refines : ∀ op : Op, op.IsU32 → ∀ r m', m.exec op = some (r, m') → RefinesPageMap m op r m'
  total : ∀ op : Op, op.InRange → (m.exec op).isSome

private theorem StepOk.refines {op : Op} {r : ResultCode} {m' : VMManager} (h : StepOk m op r m') :
    RefinesPageMap m op r m' := by
  unfold RefinesPageMap
  split
  · rename_i hr
    exact fun page => h.changes hr (page * pageSize)
  · rename_i hr
    exact fun page => h.keeps hr (page * pageSize)

/-- Every run in which no call meets a straddling pair keeps the address space in order. -/
theorem run_addressSpaceOk (ops : List Op) (hops : ∀ op ∈ ops, op.IsU32) (hsafe : SafeRun reset ops) (m : VMManager)
    (h : reset.run ops = some m) : AddressSpaceOk m := by
  obtain ⟨ht, hl, hc⟩ := reset_ok
  obtain ⟨h1, h2, h3⟩ := run_ok hops ht hl h
  refine ⟨h1, h3 hc hsafe, ?_, ?_⟩
  · intro op hop r m' hstep
    exact (exec_ok h1 h2 hop hstep).refines
  · intro op hop
    exact exec_isSome h1 h2 hop

/-- Three pages are mapped, the last two become read only, and the first one is unmapped. -/
def sampleOps : List Op :=
  [.mapBackingMemory 0x1000 0x100000 0x3000 .privateMemory, .reprotectRange 0x2000 0x2000 1, .unmapRange 0x1000 0x1000]

theorem sampleOps_addressSpaceOk :
    ∃ m, reset.run sampleOps = some m ∧ m.vmaMap.length = 3 ∧ AddressSpaceOk m := by
  refine ⟨_, rfl, rfl, run_addressSpaceOk sampleOps ?_ ?_ _ rfl⟩
  · decide
  · refine ⟨trivial, fun r hr => ?_⟩
    cases hr
    refine ⟨?_, fun r hr => ⟨trivial, fun _ _ => trivial⟩⟩
    show ¬ Straddles (reprotected 1) 0x2000 (0x2000 + 0x2000) _
    decide

/-- The same three pages; then the first two become read only as well. -/
def straddlingOps : List Op :=
  [.mapBackingMemory 0x1000 0x100000 0x3000 .privateMemory, .reprotectRange 0x2000 0x2000 1,
    .reprotectRange 0x1000 0x2000 1]

/-- The second page has been absorbed by the first one, and the third page is left alone although it continues both. -/
theorem straddlingOps_not_canonical :
    (∀ op ∈ straddlingOps, op.InRange ∧ op.IsU32) ∧ ∃ m, reset.run straddlingOps = some m ∧ ¬ Canonical m.vmaMap := by
  refine ⟨by decide, _, rfl, ?_⟩
  decide

end VMManager

end SweepDSEmu
