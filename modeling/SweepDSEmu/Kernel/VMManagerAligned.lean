import SweepDSEmu.Kernel.VMManagerExact

/-!
# Page alignment and reachable address spaces

Every area starts at a page.  Areas are only split at the ends of a range, and `CarveVMA` and `CarveVMARange` assert
that these are aligned.

`Reachable` collects the address spaces that the calls of `VMManager` lead to.
-/

namespace SweepDSEmu

open VirtualMemoryArea

namespace VMManager

/-- Every area starts at a page. -/
def Aligned (m : VMManager) : Prop := ∀ p ∈ m.vmaMap, p.1 % pageSize = 0 ∧ p.2.base % pageSize = 0

variable {m m' : VMManager}

theorem mem_of_get? {l : Areas} {k : Nat} {v : VirtualMemoryArea} (h : OrderedMap.get? l k = some v) :
    (k, v) ∈ l := by
  obtain ⟨⟨k', v'⟩, hfind, hv⟩ := Option.map_eq_some_iff.mp h
  have hk : k' = k := by simpa using List.find?_some hfind
  have hv : v' = v := hv
  subst hk hv
  exact List.mem_of_find?_eq_some hfind

variable {r : Except ResultCode VMAIter × VMManager} {f : VirtualMemoryArea → VirtualMemoryArea}

private theorem Aligned.modify (h : m.Aligned) (k : Nat)
    (hf : ∀ v, (f v).base = v.base) : Aligned { m with vmaMap := m.vmaMap.modify k f } := by
  intro p hp
  obtain ⟨q, hq, rfl⟩ := List.mem_map.mp hp
  have hq := h q hq
  by_cases hk : q.1 = k
  · simp only [if_pos hk, hf]
    exact hq
  · simp only [if_neg hk]
    exact hq

private theorem Aligned.erase (h : m.Aligned) (k : Nat) : Aligned { m with vmaMap := m.vmaMap.erase k } :=
  fun p hp => h p (List.mem_filter.mp hp).1

private theorem Aligned.emplace (h : m.Aligned) {k : Nat} {v : VirtualMemoryArea} (hk : k % pageSize = 0)
    (hv : v.base % pageSize = 0) : Aligned { m with vmaMap := m.vmaMap.emplace k v } := by
  intro p hp
  simp only [OrderedMap.emplace] at hp
  split at hp
  · exact h p hp
  · rcases List.mem_append.mp hp with hp | hp
    · exact h p ((List.takeWhile_sublist _).subset hp)
    · rcases List.mem_cons.mp hp with rfl | hp
      · exact ⟨hk, hv⟩
      · exact h p ((List.dropWhile_sublist _).subset hp)

private theorem Aligned.splitVMA (h : m.Aligned) {vma n : Nat} (hn : n % pageSize = 0) {r : VMAIter × VMManager}
    (hsplit : m.splitVMA vma n = some r) : r.2.Aligned := by
  unfold VMManager.splitVMA at hsplit
  simp only [Option.bind_eq_bind, Option.bind_eq_some_iff] at hsplit
  obtain ⟨old, hold, -, -, -, -, b, -, -, -, heq⟩ := hsplit
  cases heq
  have hbase : old.base % pageSize = 0 := (h _ (mem_of_get? hold)).2
  have hnew : (old.splitRight n).base % pageSize = 0 := by
    rw [splitRight_base]
    unfold pageSize at *
    omega
  exact (h.modify vma (f := fun v => v.splitLeft n) fun _ => rfl).emplace hnew hnew

private theorem Aligned.splitVMAIf (h : m.Aligned) {cond : Prop} [Decidable cond] {vma n : Nat} (hn : n % pageSize = 0)
    {r : VMAIter × VMManager} (hsplit : m.splitVMAIf cond vma n = some r) : r.2.Aligned := by
  unfold VMManager.splitVMAIf at hsplit
  split at hsplit
  · exact h.splitVMA hn hsplit
  · cases hsplit
    exact h

private theorem Aligned.mergeNext (h : m.Aligned) {vma : VMAIter} (hmerge : m.mergeNext vma = some m') :
    m'.Aligned := by
  unfold VMManager.mergeNext at hmerge
  split at hmerge
  · cases hmerge
    exact h
  · simp only [Option.bind_eq_bind, Option.bind_eq_some_iff] at hmerge
    obtain ⟨v, -, w, -, b, -, hmerge⟩ := hmerge
    split at hmerge
    · cases hmerge
      exact (h.modify vma (f := fun v => { v with size := v.size + w.size }) fun _ => rfl).erase _
    · cases hmerge
      exact h

private theorem Aligned.mergePrev (h : m.Aligned) {vma : VMAIter} {r : VMAIter × VMManager}
    (hmerge : m.mergePrev vma = some r) : r.2.Aligned := by
  unfold VMManager.mergePrev at hmerge
  split at hmerge
  · cases hmerge
    exact h
  · simp only [Option.bind_eq_bind, Option.bind_eq_some_iff] at hmerge
    obtain ⟨v, -, u, -, b, -, hmerge⟩ := hmerge
    split at hmerge
    · cases hmerge
      exact (h.modify _ (f := fun u => { u with size := u.size + v.size }) fun _ => rfl).erase _
    · cases hmerge
      exact h

private theorem Aligned.updateVMA (h : m.Aligned) {vma : VMAIter}
    (hf : ∀ v, (f v).base = v.base) {r : VMAIter × VMManager} (hupdate : m.updateVMA vma f = some r) :
    r.2.Aligned := by
  obtain ⟨m₁, hnext, hprev⟩ := Option.bind_eq_some_iff.mp hupdate
  exact ((h.modify vma hf).mergeNext hnext).mergePrev hprev

private theorem Aligned.updateRange (hf : ∀ v, (f v).base = v.base)
    {e fuel : Nat} {vma : Option VMAIter} (h : m.Aligned) (hupdate : updateRange f e fuel vma m = some m') :
    m'.Aligned := by
  induction fuel generalizing vma m with
  | zero =>
    cases vma with
    | none => cases hupdate; exact h
    | some vma => cases hupdate
  | succ fuel ih =>
    cases vma with
    | none => cases hupdate; exact h
    | some vma =>
      simp only [VMManager.updateRange, Option.bind_eq_bind, Option.bind_eq_some_iff] at hupdate
      obtain ⟨v, -, hupdate⟩ := hupdate
      split at hupdate
      · obtain ⟨r, hr, hrest⟩ := Option.bind_eq_some_iff.mp hupdate
        exact ih (h.updateVMA hf hr) hrest
      · cases hupdate
        exact h

private theorem sub_aligned {a b : Nat} (ha : a % pageSize = 0) (hb : b % pageSize = 0) : (a - b) % pageSize = 0 := by
  unfold pageSize at *
  omega

private theorem addU32_aligned {a b : Nat} (ha : a % pageSize = 0) (hb : b % pageSize = 0) :
    addU32 a b % pageSize = 0 := by
  unfold pageSize addU32 at *
  omega

private theorem Aligned.carveVMA (h : m.Aligned) {base size : Nat}
    (hcarve : m.carveVMA base size = some r) : r.2.Aligned := by
  unfold VMManager.carveVMA at hcarve
  simp only [Option.bind_eq_bind, Option.bind_eq_some_iff, Option.guard_eq_some'] at hcarve
  obtain ⟨-, hs, -, hb, hcarve⟩ := hcarve
  split at hcarve
  · cases hcarve
    exact h
  obtain ⟨v, hv, hcarve⟩ := Option.bind_eq_some_iff.mp hcarve
  have hstart := sub_aligned hb (h _ (mem_of_get? hv)).2
  split at hcarve
  · cases hcarve
    exact h
  split at hcarve
  · cases hcarve
    exact h
  obtain ⟨⟨k, m₁⟩, h1, hcarve⟩ := Option.bind_eq_some_iff.mp hcarve
  obtain ⟨⟨k, m₂⟩, h2, hcarve⟩ := Option.bind_eq_some_iff.mp hcarve
  cases hcarve
  exact (h.splitVMAIf (addU32_aligned hstart hs) h1).splitVMAIf hstart h2

private theorem Aligned.splitAtEnd (h : m.Aligned) {e : Nat} (he : e % pageSize = 0)
    (hsplit : m.splitAtEnd e = some m') : m'.Aligned := by
  unfold VMManager.splitAtEnd at hsplit
  split at hsplit
  · cases hsplit
    exact h
  obtain ⟨v, hv, hsplit⟩ := Option.bind_eq_some_iff.mp hsplit
  obtain ⟨⟨k, m₁⟩, h1, hsplit⟩ := Option.bind_eq_some_iff.mp hsplit
  cases hsplit
  exact h.splitVMAIf (sub_aligned he (h _ (mem_of_get? hv)).2) h1

private theorem Aligned.carveVMARange (h : m.Aligned) {target size : Nat}
    (hcarve : m.carveVMARange target size = some r) : r.2.Aligned := by
  unfold VMManager.carveVMARange at hcarve
  simp only [Option.bind_eq_bind, Option.bind_eq_some_iff, Option.guard_eq_some'] at hcarve
  obtain ⟨-, hs, -, hb, -, -, -, -, -, -, k, -, hcarve⟩ := hcarve
  split at hcarve
  · cases hcarve
    exact h
  obtain ⟨v, hv, hcarve⟩ := Option.bind_eq_some_iff.mp hcarve
  obtain ⟨⟨k₁, m₁⟩, h1, hcarve⟩ := Option.bind_eq_some_iff.mp hcarve
  obtain ⟨m₂, h2, hcarve⟩ := Option.bind_eq_some_iff.mp hcarve
  cases hcarve
  exact (h.splitVMAIf (sub_aligned hb (h _ (mem_of_get? hv)).2) h1).splitAtEnd (addU32_aligned hb hs) h2

theorem Aligned.mapBackingMemory (h : m.Aligned) {target memory size : Nat} {state : MemoryState} (hmap : m.mapBackingMemory target memory size state = some r) :
    r.2.Aligned := by
  unfold VMManager.mapBackingMemory at hmap
  simp only [Option.bind_eq_bind, Option.bind_eq_some_iff, Option.guard_eq_some'] at hmap
  obtain ⟨-, -, -, -, ⟨res, m₁⟩, hcarve, hmap⟩ := hmap
  have h₁ := h.carveVMA hcarve
  cases res with
  | error e =>
    cases hmap
    exact h₁
  | ok k =>
    simp only [Option.bind_eq_some_iff, Option.guard_eq_some'] at hmap
    obtain ⟨v, -, -, -, ⟨k', m₂⟩, hupdate, hmap⟩ := hmap
    cases hmap
    exact h₁.updateVMA (f := mapped memory state) (fun _ => rfl) hupdate

private theorem Aligned.unmapRange (h : m.Aligned) {target size : Nat} {r : ResultCode × VMManager}
    (hunmap : m.unmapRange target size = some r) : r.2.Aligned := by
  unfold VMManager.unmapRange at hunmap
  simp only [Option.bind_eq_bind, Option.bind_eq_some_iff, Option.guard_eq_some'] at hunmap
  obtain ⟨-, -, ⟨res, m₁⟩, hcarve, hunmap⟩ := hunmap
  have h₁ := h.carveVMARange hcarve
  cases res with
  | error e =>
    cases hunmap
    exact h₁
  | ok k =>
    simp only [Option.bind_eq_some_iff, Option.guard_eq_some'] at hunmap
    obtain ⟨m₂, hupdate, -, -, -, -, -, -, hunmap⟩ := hunmap
    cases hunmap
    exact Aligned.updateRange (f := unmapped) (fun _ => rfl) h₁ hupdate

private theorem Aligned.reprotectRange (h : m.Aligned) {target size : Nat} {p : VMAPermission}
    {r : ResultCode × VMManager} (hrange : m.reprotectRange target size p = some r) : r.2.Aligned := by
  unfold VMManager.reprotectRange at hrange
  simp only [Option.bind_eq_bind, Option.bind_eq_some_iff, Option.guard_eq_some'] at hrange
  obtain ⟨-, -, ⟨res, m₁⟩, hcarve, hrange⟩ := hrange
  have h₁ := h.carveVMARange hcarve
  cases res with
  | error e =>
    cases hrange
    exact h₁
  | ok k =>
    obtain ⟨m₂, hupdate, hrange⟩ := Option.bind_eq_some_iff.mp hrange
    cases hrange
    exact Aligned.updateRange (f := reprotected p) (fun _ => rfl) h₁ hupdate

private theorem Aligned.changeMemoryState (h : m.Aligned) {target size : Nat} {es ns : MemoryState}
    {ep np : VMAPermission} {r : ResultCode × VMManager}
    (hchange : m.changeMemoryState target size es ep ns np = some r) : r.2.Aligned := by
  unfold VMManager.changeMemoryState at hchange
  split at hchange
  · cases hchange
    exact h
  simp only at hchange
  split at hchange
  · cases hchange
    exact h
  split at hchange
  · cases hchange
    exact h
  obtain ⟨⟨res, m₁⟩, hcarve, hchange⟩ := Option.bind_eq_some_iff.mp hchange
  have h₁ := h.carveVMARange hcarve
  cases res with
  | error e =>
    cases hchange
    exact h₁
  | ok k =>
    obtain ⟨m₂, hupdate, hchange⟩ := Option.bind_eq_some_iff.mp hchange
    cases hchange
    exact Aligned.updateRange (f := changed ns np) (fun _ => rfl) h₁ hupdate

theorem Aligned.exec (h : m.Aligned) {op : Op} {r : ResultCode} (hexec : m.exec op = some (r, m')) : m'.Aligned := by
  cases op with
  | mapBackingMemory target memory size state =>
    obtain ⟨⟨res, m₁⟩, hmap, heq⟩ := Option.map_eq_some_iff.mp hexec
    have h₁ := h.mapBackingMemory hmap
    cases res <;> cases heq <;> exact h₁
  | unmapRange target size => exact h.unmapRange hexec
  | reprotectRange target size p => exact h.reprotectRange hexec
  | changeMemoryState target size es ep ns np => exact h.changeMemoryState hexec

/-- The address spaces that calls lead to from `Reset`. -/
inductive Reachable : VMManager → Prop
  | reset : Reachable VMManager.reset
  | exec {m m' : VMManager} {op : Op} {r : ResultCode} (hm : Reachable m) (hop : op.IsU32)
      (h : m.exec op = some (r, m')) : Reachable m'
  | mapBackingMemoryToBase {m m' : VMManager} {base regionSize memory size : Nat} {state : MemoryState}
      {r : Except ResultCode Nat} (hm : Reachable m) (hbase : base < 2 ^ 32) (hsize : size < 2 ^ 32)
      (h : m.mapBackingMemoryToBase base regionSize memory size state = some (r, m')) : Reachable m'
  | reprotect {m m' : VMManager} {vma vma' : VMAIter} {p : VMAPermission} (hm : Reachable m)
      (hvma : ∃ v, m.vmaMap.get? vma = some v ∧ v.type = .backingMemory) (h : m.reprotect vma p = some (vma', m')) :
      Reachable m'

theorem Reachable.run (hm : m.Reachable) (ops : List Op) (hops : ∀ op ∈ ops, op.IsU32) (h : m.run ops = some m') :
    m'.Reachable := by
  induction ops generalizing m with
  | nil =>
    cases h
    exact hm
  | cons op ops ih =>
    obtain ⟨⟨r, m₁⟩, hstep, hrest⟩ := Option.bind_eq_some_iff.mp h
    exact ih (hm.exec (hops op List.mem_cons_self) hstep) (fun op hop => hops op (List.mem_cons_of_mem _ hop)) hrest

/-- What holds of an address space between two calls. -/
structure Sound (m : VMManager) : Prop where
  tiled : m.Tiled
  unlocked : m.isLocked = false
  aligned : m.Aligned
  blank : ∀ x, ∀ a ∈ absAt m.vmaMap x, a.type = .free → a = ⟨.free, VMAPermission.none, .free, 0⟩
  nonnull : ∀ x, ∀ a ∈ absAt m.vmaMap x, a.type = .backingMemory → a.backingMemory ≠ 0

private theorem absAt_reset {x : Nat} {a : PageAttr} (h : a ∈ absAt reset.vmaMap x) :
    a = ⟨.free, VMAPermission.none, .free, 0⟩ := by
  unfold reset at h
  simp only [absAt_singleton] at h
  split at h
  · exact (Option.some_injective _ h).symm
  · cases h

theorem sound_reset : reset.Sound where
  tiled := ⟨rfl, rfl, by decide, rfl⟩
  unlocked := rfl
  aligned := by
    intro p hp
    cases List.mem_singleton.mp hp
    exact ⟨rfl, rfl⟩
  blank x a ha _ := by
    have ha := absAt_reset ha
    exact ha
  nonnull x a ha htype := by
    rw [absAt_reset ha] at htype
    cases htype

private theorem requested_ok (hm : m.Sound) {op : Op} (hop : op.IsU32) (h : m.exec op = some (.success, m')) {x : Nat}
    (hx : op.target ≤ x) (hx' : x < op.target + op.size) {a : PageAttr} (ha : a ∈ absAt m.vmaMap x) :
    ((op.requested x a).type = .free → op.requested x a = ⟨.free, VMAPermission.none, .free, 0⟩) ∧
      ((op.requested x a).type = .backingMemory → (op.requested x a).backingMemory ≠ 0) := by
  cases op with
  | mapBackingMemory target memory size state =>
    obtain ⟨c, hc, -⟩ := Option.map_eq_some_iff.mp h
    have hmem := (mapBackingMemory_guards hc).1
    refine ⟨(nomatch ·), fun _ => ?_⟩
    show memory + (x - target) ≠ 0
    omega
  | unmapRange target size => exact ⟨fun _ => rfl, (nomatch ·)⟩
  | reprotectRange target size p =>
    have hr := rangeOk_of_reprotectRange hop.1 hop.2 h
    have htype := (reprotectRange_success_iff hm.tiled hr h).mp rfl x hx hx' a ha
    exact ⟨fun hfree => absurd hfree htype, fun hb => hm.nonnull x a ha hb⟩
  | changeMemoryState target size es ep ns np =>
    have hr := rangeOk_of_changeMemoryState hm.unlocked hop.1 hop.2 h
    have htype := ((changeMemoryState_success_iff hm.tiled hm.unlocked hr h).mp rfl).1 x hx hx' a ha
    exact ⟨fun hfree => absurd hfree htype, fun hb => hm.nonnull x a ha hb⟩

private theorem exec_attr (hm : m.Sound) {op : Op} (hop : op.IsU32) {r : ResultCode} (h : m.exec op = some (r, m'))
    {x : Nat} {a : PageAttr} (ha : a ∈ absAt m'.vmaMap x) :
    a ∈ absAt m.vmaMap x ∨ (r = .success ∧ op.target ≤ x ∧ x < op.target + op.size ∧
      ∃ b ∈ absAt m.vmaMap x, a = op.requested x b) := by
  have hok := exec_ok hm.tiled hm.unlocked hop h
  by_cases hr : r = .success
  · rw [hok.changes hr x] at ha
    split at ha
    · rename_i hx
      obtain ⟨b, hb, rfl⟩ := Option.map_eq_some_iff.mp ha
      exact Or.inr ⟨hr, hx.1, hx.2, b, hb, rfl⟩
    · exact Or.inl ha
  · rw [hok.keeps hr x] at ha
    exact Or.inl ha

theorem Sound.exec (hm : m.Sound) {op : Op} (hop : op.IsU32) {r : ResultCode} (h : m.exec op = some (r, m')) :
    m'.Sound := by
  have hok := exec_ok hm.tiled hm.unlocked hop h
  refine ⟨hok.tiled, hok.locked.trans hm.unlocked, hm.aligned.exec h, ?_, ?_⟩
  · intro x a ha hfree
    rcases exec_attr hm hop h ha with ha | ⟨rfl, hx, hx', b, hb, rfl⟩
    · exact hm.blank x a ha hfree
    · exact (requested_ok hm hop h hx hx' hb).1 hfree
  · intro x a ha hbacking
    rcases exec_attr hm hop h ha with ha | ⟨rfl, hx, hx', b, hb, rfl⟩
    · exact hm.nonnull x a ha hbacking
    · exact (requested_ok hm hop h hx hx' hb).2 hbacking

theorem mapBackingMemoryToBase_cases {base regionSize memory size : Nat} {state : MemoryState}
    {r : Except ResultCode Nat} (h : m.mapBackingMemoryToBase base regionSize memory size state = some (r, m')) :
    m' = m ∨ ∃ target res, (target = base ∨ ∃ p ∈ m.vmaMap, target = p.2.base) ∧
      m.mapBackingMemory target memory size state = some (res, m') := by
  unfold VMManager.mapBackingMemoryToBase at h
  simp only [Option.bind_eq_bind, Option.bind_eq_some_iff, Option.guard_eq_some'] at h
  obtain ⟨-, -, ⟨k, v⟩, hfind, h⟩ := h
  split at h
  · cases h
    exact Or.inl rfl
  · obtain ⟨⟨res, m₁⟩, hmap, h⟩ := Option.bind_eq_some_iff.mp h
    have htarget : max base v.base = base ∨ ∃ p ∈ m.vmaMap, max base v.base = p.2.base := by
      rcases Nat.le_total v.base base with hle | hle
      · exact Or.inl (Nat.max_eq_left hle)
      · exact Or.inr ⟨(k, v), List.mem_of_find?_eq_some hfind, Nat.max_eq_right hle⟩
    cases res with
    | error e =>
      cases h
      exact Or.inr ⟨_, _, htarget, hmap⟩
    | ok k' =>
      cases h
      exact Or.inr ⟨_, _, htarget, hmap⟩

theorem Sound.mapBackingMemory (hm : m.Sound) {target memory size : Nat} (ht : target < 2 ^ 32)
    (hs : size < 2 ^ 32) {state : MemoryState} {res : Except ResultCode VMAIter}
    (h : m.mapBackingMemory target memory size state = some (res, m')) : m'.Sound := by
  have hop : Op.IsU32 (.mapBackingMemory target memory size state) := ⟨ht, hs⟩
  cases res with
  | ok k => exact hm.exec (r := .success) hop (by simp only [VMManager.exec, h, Option.map_some])
  | error e => exact hm.exec (r := e) hop (by simp only [VMManager.exec, h, Option.map_some])

theorem Sound.reprotect (hm : m.Sound) {vma vma' : VMAIter} {p : VMAPermission}
    (hvma : ∃ v, m.vmaMap.get? vma = some v ∧ v.type = .backingMemory) (h : m.reprotect vma p = some (vma', m')) :
    m'.Sound := by
  obtain ⟨v, hv, htype⟩ := hvma
  have hmem := mem_of_get? hv
  have htiled := hm.tiled
  unfold Tiled at htiled
  obtain ⟨pre, post, hsplit⟩ := List.append_of_mem hmem
  have hkey : vma = v.base := (htiled.mem hmem).1
  subst hkey
  obtain ⟨ht, heq⟩ := updateVMA_eq (f := reprotected p) hm.tiled hsplit rfl rfl
  unfold VMManager.reprotect at h
  simp only [Option.bind_eq_bind, Option.bind_eq_some_iff, Option.guard_eq_some'] at h
  obtain ⟨-, -, hupdate⟩ := h
  have haligned := hm.aligned.updateVMA (f := reprotected p) (fun _ => rfl) hupdate
  rw [heq] at hupdate
  cases hupdate
  -- an address has the attributes from before or is in the area
  have hattr : ∀ x, ∀ a ∈ absAt (mergedAreas pre (reprotected p v) post) x,
      a ∈ absAt m.vmaMap x ∨ ∃ b ∈ absAt m.vmaMap x, b.type = .backingMemory ∧ a = { b with permissions := p } := by
    intro x a ha
    rw [(mergedAreas_tiles ht).2 x] at ha
    by_cases hx : v.base ≤ x ∧ x < v.stop
    · rw [absAt_split_mem ht hx.1 hx.2] at ha
      right
      refine ⟨v.attrAt x, ?_, htype, (Option.some_injective _ ha).symm⟩
      rw [hsplit] at htiled ⊢
      exact absAt_split_mem htiled hx.1 hx.2
    · left
      rw [hsplit, absAt_append, absAt_cons, if_neg hx]
      rw [absAt_append, absAt_cons, show (reprotected p v).base = v.base from rfl,
        show (reprotected p v).stop = v.stop from rfl, if_neg hx] at ha
      exact ha
  refine ⟨(mergedAreas_tiles ht).1, hm.unlocked, haligned, ?_, ?_⟩
  · intro x a ha hfree
    rcases hattr x a ha with ha | ⟨b, hb, hbtype, rfl⟩
    · exact hm.blank x a ha hfree
    · have hfree : b.type = .free := hfree
      rw [hbtype] at hfree
      cases hfree
  · intro x a ha hbacking
    rcases hattr x a ha with ha | ⟨b, hb, hbtype, rfl⟩
    · exact hm.nonnull x a ha hbacking
    · exact hm.nonnull x b hb hbtype

theorem Reachable.sound (h : m.Reachable) : m.Sound := by
  induction h with
  | reset => exact sound_reset
  | exec _ hop h ih => exact ih.exec hop h
  | mapBackingMemoryToBase _ hbase hsize h ih =>
    rcases mapBackingMemoryToBase_cases h with rfl | ⟨target, res, htarget, hmap⟩
    · exact ih
    · refine ih.mapBackingMemory ?_ hsize hmap
      rcases htarget with rfl | ⟨p, hp, rfl⟩
      · exact hbase
      · have htiled := ih.tiled
        obtain ⟨-, -, -, hstop⟩ := htiled.mem hp
        unfold stop maxAddress at hstop
        omega
  | reprotect _ hvma h ih => exact ih.reprotect hvma h

end VMManager

end SweepDSEmu
