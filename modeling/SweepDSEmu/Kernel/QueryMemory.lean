import SweepDSEmu.Kernel.MemoryRegion
import SweepDSEmu.Kernel.VMManagerAligned

/-!
# Querying the memory of a process

`QueryProcessMemory` looks at the areas around an address, downwards with a reverse iterator and upwards with a forward
one, until the permissions or the state change, and steps both iterators back by one.  What it reports is the largest
interval around the address in which the permissions and the state are the same.
-/

namespace SweepDSEmu

open VirtualMemoryArea

structure MemoryInfo where
  baseAddress : Nat
  size : Nat
  permission : VMAPermission
  state : MemoryState
  deriving DecidableEq

namespace VMManager

def mismatch (permissions : VMAPermission) (state : MemoryState) (entry : Nat × VirtualMemoryArea) : Bool :=
  entry.2.permissions ≠ permissions || entry.2.meminfoState ≠ state

def queryProcessMemory (m : VMManager) (addr : Nat) : Option (Except ResultCode MemoryInfo) :=
  match m.findVMA addr with
  | none => some (.error .invalidAddress)
  | some vma => do
    let v ← m.vmaMap.get? vma
    let mismatch := mismatch v.permissions v.meminfoState
    let lower ← m.vmaMap.findIfReverse mismatch (m.vmaMap.length + 1) (some vma)
    -- A reverse iterator steps back when its base steps on, and points to the entry before its base.
    let lower := lower.bind m.vmaMap.next
    let upper ← m.vmaMap.findIf mismatch (m.vmaMap.length + 1) (some vma)
    let upper ← m.vmaMap.prev upper
    let first ← m.vmaMap.get? (← m.vmaMap.prev lower)
    let last ← m.vmaMap.get? upper
    return .ok {
      baseAddress := first.base
      permission := v.permissions
      size := subU32 (addU32 last.base last.size) first.base
      state := v.meminfoState }

/-- The attributes are those that the query reports. -/
def Shows (info : MemoryInfo) (a : PageAttr) : Prop := a.permissions = info.permission ∧ a.meminfoState = info.state

structure MaximalInterval (m : VMManager) (addr : Nat) (info : MemoryInfo) : Prop where
  contains : info.baseAddress ≤ addr ∧ addr < info.baseAddress + info.size
  aligned : info.baseAddress % pageSize = 0 ∧ info.size % pageSize = 0
  inside : ∀ page, info.baseAddress ≤ page * pageSize → page * pageSize < info.baseAddress + info.size →
    ∃ a, m.pageMap page = some a ∧ Shows info a
  below : ∀ page, (page + 1) * pageSize = info.baseAddress → ∃ a, m.pageMap page = some a ∧ ¬ Shows info a
  above : ∀ page, page * pageSize = info.baseAddress + info.size → page * pageSize < maxAddress →
    ∃ a, m.pageMap page = some a ∧ ¬ Shows info a

private theorem mismatch_eq_true_iff {permissions : VMAPermission} {state : MemoryState}
    {entry : Nat × VirtualMemoryArea} :
    mismatch permissions state entry = true ↔ ¬ (entry.2.permissions = permissions ∧ entry.2.meminfoState = state) := by
  simp [mismatch]
  tauto

private theorem absAt_part {a b c d : Nat} {pre mid post : Areas} (hpre : Tiles a pre c) (hmid : Tiles c mid d)
    (hpost : Tiles d post b) {x : Nat} (hcx : c ≤ x) (hxd : x < d) :
    ∃ e ∈ mid, absAt (pre ++ mid ++ post) x = some (e.2.attrAt x) := by
  obtain ⟨pre', v, post', rfl, hx, hx'⟩ := hmid.find hcx hxd
  refine ⟨(v.base, v), by simp, ?_⟩
  have hall : Tiles a (pre ++ pre' ++ (v.base, v) :: (post' ++ post)) b := by
    have htiles : Tiles a (pre ++ ((pre' ++ (v.base, v) :: post') ++ post)) b :=
      tiles_append.mpr ⟨c, hpre, tiles_append.mpr ⟨d, hmid, hpost⟩⟩
    simpa using htiles
  have hat := absAt_split_mem hall hx hx'
  simpa using hat

private theorem tiles_getLast {a c : Nat} {l : Areas} (h : Tiles a l c) (hlt : a < c) :
    ∃ l' e, l = l' ++ [e] ∧ e.1 = e.2.base ∧ 0 < e.2.size ∧ e.2.stop = c := by
  rcases List.eq_nil_or_concat l with rfl | ⟨l', e, rfl⟩
  · exact absurd h (by show a ≠ c; omega)
  · obtain ⟨k, v⟩ := e
    rw [List.concat_eq_append] at h ⊢
    obtain ⟨-, hk, hpos, hstop⟩ := tiles_split.mp h
    exact ⟨l', (k, v), rfl, hk, hpos, hstop⟩

/-- The areas around an address, cut where the permissions or the state change: `pre ++ mid ++ post` with the bounds `c`
and `d` of the middle part. -/
structure CutAround (m : VMManager) (v : VirtualMemoryArea) (pre mid post : Areas) (c d : Nat) : Prop where
  areas : m.vmaMap = pre ++ mid ++ post
  mem : (v.base, v) ∈ mid
  before : Tiles 0 pre c
  middle : Tiles c mid d
  after : Tiles d post maxAddress
  same : ∀ e ∈ mid, mismatch v.permissions v.meminfoState e = false
  changesBefore : ∀ e ∈ pre.getLast?, mismatch v.permissions v.meminfoState e = true
  changesAfter : ∀ e ∈ post.head?, mismatch v.permissions v.meminfoState e = true

variable {m : VMManager} {v : VirtualMemoryArea} {pre mid post : Areas} {c d : Nat}

section

variable (h : CutAround m v pre mid post c d)

include h

private theorem CutAround.bounds : c ≤ v.base ∧ v.stop ≤ d ∧ c < d := by
  obtain ⟨-, hpos, hle, hstop⟩ := h.middle.mem h.mem
  have hlt : v.base < v.stop := Nat.lt_add_of_pos_right hpos
  exact ⟨hle, hstop, lt_of_le_of_lt hle (lt_of_lt_of_le hlt hstop)⟩

private theorem CutAround.aligned (ha : m.Aligned) : c % pageSize = 0 ∧ d % pageSize = 0 := by
  constructor
  · cases mid with
    | nil => exact absurd h.mem List.not_mem_nil
    | cons e mid =>
      obtain ⟨-, hbase, -⟩ := h.middle
      rw [← hbase]
      exact (ha e (by rw [h.areas]; simp)).2
  · cases post with
    | nil =>
      rw [show d = maxAddress from h.after]
      decide
    | cons e post =>
      obtain ⟨-, hbase, -⟩ := h.after
      rw [← hbase]
      exact (ha e (by rw [h.areas]; simp)).2

private theorem CutAround.inside {x : Nat} (hc : c ≤ x) (hd : x < d) :
    ∃ a, absAt m.vmaMap x = some a ∧ a.permissions = v.permissions ∧ a.meminfoState = v.meminfoState := by
  obtain ⟨e, he, hat⟩ := absAt_part h.before h.middle h.after hc hd
  refine ⟨_, by rw [h.areas]; exact hat, ?_⟩
  have hsame := h.same e he
  by_contra hne
  rw [mismatch_eq_true_iff.mpr hne] at hsame
  cases hsame

private theorem CutAround.below (ha : m.Aligned) {page : Nat} (hpage : (page + 1) * pageSize = c) :
    ∃ a, m.pageMap page = some a ∧ ¬ (a.permissions = v.permissions ∧ a.meminfoState = v.meminfoState) := by
  have hpos : 0 < c := by
    unfold pageSize at hpage
    omega
  obtain ⟨pre', e, rfl, -, hsize, hstop⟩ := tiles_getLast h.before hpos
  have hchange := mismatch_eq_true_iff.mp (h.changesBefore e (by simp))
  have hbase : e.2.base % pageSize = 0 := (ha e (by rw [h.areas]; simp)).2
  have hcover : e.2.base ≤ page * pageSize ∧ page * pageSize < e.2.stop := by
    unfold stop pageSize at *
    omega
  obtain ⟨c', hpre', he⟩ := tiles_append.mp h.before
  have hbound : c' = e.2.base := he.2.1.symm
  have hafter : Tiles c (mid ++ post) maxAddress := tiles_append.mpr ⟨d, h.middle, h.after⟩
  obtain ⟨e', he', hat⟩ := absAt_part (x := page * pageSize) hpre' he hafter (by omega) (by omega)
  rw [List.mem_singleton.mp he'] at hat
  refine ⟨e.2.attrAt (page * pageSize), ?_, hchange⟩
  unfold pageMap
  rw [h.areas, ← hat]
  simp only [List.append_assoc]

private theorem CutAround.above {page : Nat} (hpage : page * pageSize = d) (hmax : page * pageSize < maxAddress) :
    ∃ a, m.pageMap page = some a ∧ ¬ (a.permissions = v.permissions ∧ a.meminfoState = v.meminfoState) := by
  cases post with
  | nil =>
    have hd : d = maxAddress := h.after
    omega
  | cons e post =>
    have hchange := mismatch_eq_true_iff.mp (h.changesAfter e rfl)
    obtain ⟨hkey, hbase, hsize, hafter⟩ := h.after
    have hbefore : Tiles 0 (pre ++ mid) d := tiles_append.mpr ⟨c, h.before, h.middle⟩
    have he : Tiles d [e] (d + e.2.size) := ⟨hkey, hbase, hsize, rfl⟩
    obtain ⟨e', he', hat⟩ := absAt_part (x := page * pageSize) hbefore he hafter (by omega) (by omega)
    rw [List.mem_singleton.mp he'] at hat
    refine ⟨e.2.attrAt (page * pageSize), ?_, hchange⟩
    unfold pageMap
    rw [h.areas, ← hat]
    simp only [List.append_assoc, List.singleton_append]

private theorem CutAround.maximalInterval (ha : m.Aligned) {addr : Nat}
    (hbase : v.base ≤ addr) (hstop : addr < v.stop) :
    MaximalInterval m addr ⟨c, d - c, v.permissions, v.meminfoState⟩ := by
  obtain ⟨hcv, hvd, hcd⟩ := h.bounds
  obtain ⟨hc, hd⟩ := h.aligned ha
  have hend : c + (d - c) = d := by omega
  refine ⟨?_, ?_, ?_, ?_, ?_⟩
  · simp only [hend]
    omega
  · refine ⟨hc, ?_⟩
    show (d - c) % pageSize = 0
    unfold pageSize at *
    omega
  · intro page hle hlt
    simp only [hend] at hle hlt
    exact h.inside hle hlt
  · intro page hpage
    exact h.below ha hpage
  · intro page hpage hmax
    simp only [hend] at hpage
    exact h.above hpage hmax

end

private theorem searches_cut (ht : m.Tiled) {left right : Areas} (hm : m.vmaMap = left ++ (v.base, v) :: right) :
    ∃ pre mid post c d, CutAround m v pre mid post c d ∧
      m.vmaMap.findIfReverse (mismatch v.permissions v.meminfoState) (m.vmaMap.length + 1) (some v.base) =
        some (mid.head?.map Prod.fst) ∧
      m.vmaMap.findIf (mismatch v.permissions v.meminfoState) (m.vmaMap.length + 1) (some v.base) =
        some (post.head?.map Prod.fst) := by
  unfold Tiled at ht
  rw [hm] at ht
  have hself : mismatch v.permissions v.meminfoState (v.base, v) = false := by simp [mismatch]
  have hlength : (left ++ (v.base, v) :: right).length = left.length + (right.length + 1) := by simp
  obtain ⟨pre, run, hleft, hrun, hpre, hreverse⟩ :=
    OrderedMap.findIfReverse_split (p := mismatch v.permissions v.meminfoState) ht.sorted
      (show left.length < (left ++ (v.base, v) :: right).length + 1 by omega)
  obtain ⟨run', post, hright, hrun', hpost, hforward⟩ :=
    OrderedMap.findIf_split (p := mismatch v.permissions v.meminfoState) ht.sorted
      (show ((v.base, v) :: right).length < (left ++ (v.base, v) :: right).length + 1 by simp)
  have hareas : left ++ (v.base, v) :: right = pre ++ (run ++ run') ++ post := by
    rw [hright, hleft]
    simp
  have hmem : (v.base, v) ∈ run' := by
    cases run' with
    | nil =>
      rw [List.nil_append] at hright
      rw [← hright] at hpost
      have hmis := hpost (v.base, v) rfl
      rw [hself] at hmis
      cases hmis
    | cons e run' =>
      rw [List.cons_append, List.cons.injEq] at hright
      rw [hright.1]
      exact List.mem_cons_self
  rw [hareas] at ht
  obtain ⟨d, hbefore, hafter⟩ := tiles_append.mp ht
  obtain ⟨c, hbefore, hmiddle⟩ := tiles_append.mp hbefore
  refine ⟨pre, run ++ run', post, c, d, ?_, ?_, ?_⟩
  · refine ⟨by rw [hm, hareas], List.mem_append_right _ hmem, hbefore, hmiddle, hafter, ?_, hpre, hpost⟩
    intro e he
    rcases List.mem_append.mp he with he | he
    · exact hrun e he
    · exact hrun' e he
  · rw [hm, hreverse, hright]
    cases run with
    | nil =>
      cases run' with
      | nil => exact absurd hmem List.not_mem_nil
      | cons e run' => rfl
    | cons e run => rfl
  · rw [hm]
    exact hforward

private theorem CutAround.ends (h : CutAround m v pre mid post c d) :
    ∃ first last, m.vmaMap.prev ((mid.head?.map Prod.fst).bind m.vmaMap.next) = some first.base ∧
      m.vmaMap.get? first.base = some first ∧ first.base = c ∧
      m.vmaMap.prev (post.head?.map Prod.fst) = some last.base ∧ m.vmaMap.get? last.base = some last ∧
      last.base + last.size = d := by
  obtain ⟨-, -, hcd⟩ := h.bounds
  have ht : Tiles 0 m.vmaMap maxAddress := by
    rw [h.areas]
    exact tiles_append.mpr ⟨d, tiles_append.mpr ⟨c, h.before, h.middle⟩, h.after⟩
  obtain ⟨mid', last, hlast, hkey, -, hstop⟩ := tiles_getLast h.middle hcd
  have hmiddle := h.middle
  cases hmid : mid with
  | nil => rw [hmid] at hlast; simp at hlast
  | cons first rest =>
    obtain ⟨k, first⟩ := first
    rw [hmid] at hmiddle
    obtain ⟨hk, hbase, -⟩ := hmiddle
    have hk' : k = first.base := hk.trans hbase.symm
    subst hk'
    have hfirst : m.vmaMap = pre ++ (first.base, first) :: (rest ++ post) := by rw [h.areas, hmid]; simp
    have hend : m.vmaMap = (pre ++ mid') ++ (last.2.base, last.2) :: post := by
      rw [h.areas, hlast, ← hkey]
      simp
    have hend' : m.vmaMap = (pre ++ mid) ++ post := h.areas
    refine ⟨first, last.2, ?_, get?_area ht hfirst, hbase, ?_, get?_area ht hend, hstop⟩
    · rw [hfirst] at ht ⊢
      exact OrderedMap.prev_next_split ht.sorted
    · rw [hend'] at ht ⊢
      rw [OrderedMap.prev_head ht.sorted, hlast, ← hkey]
      simp

end VMManager

end SweepDSEmu
