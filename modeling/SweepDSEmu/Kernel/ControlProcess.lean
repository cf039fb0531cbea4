import SweepDSEmu.Kernel.VMManagerAligned

/-!
# Making the memory of a process readable, writable and executable

The operation `PROCESSOP_SET_MMU_TO_RWX` of `ControlProcess`.  Its loop goes over the areas and calls `Reprotect` for
each one that is not free, and `Reprotect` merges the area with its neighbours.  The loop goes on from the iterator it
had: when the area has been merged into the one before it, this iterator points to no entry.

`setMmuToRwx_iff` says for which address spaces this does not happen.
-/

namespace SweepDSEmu

open VirtualMemoryArea

def VMAPermission.readWriteExecute : VMAPermission := 7

namespace VMManager

/-- `Reprotect` with read, write and execute. -/
abbrev madeRwx (v : VirtualMemoryArea) : VirtualMemoryArea := reprotected VMAPermission.readWriteExecute v

def setMmuLoop : Nat → Option VMAIter → VMManager → Option VMManager
  | _, none, m => some m
  | 0, some _, _ => none
  | fuel + 1, some it, m => do
    let v ← m.vmaMap.get? it
    let m ← if v.meminfoState ≠ .free then (m.reprotect it VMAPermission.readWriteExecute).map Prod.snd else some m
    -- The iterator is advanced from the entry that it points to.
    guard (m.vmaMap.get? it).isSome
    setMmuLoop fuel (m.vmaMap.next it) m

/-- `ControlProcess` with `PROCESSOP_SET_MMU_TO_RWX`. -/
def setMmuToRwx (m : VMManager) : Option VMManager :=
  setMmuLoop m.vmaMap.length (m.vmaMap.head?.map Prod.fst) m

def rwxAttr (a : PageAttr) : PageAttr :=
  if a.meminfoState = .free then a else { a with permissions := VMAPermission.readWriteExecute }

/-- The loop ends without an iterator to an erased entry, every page that is not free is readable, writable and
executable, and nothing else changes. -/
def MadeRwx (m : VMManager) : Prop :=
  ∃ m', m.setMmuToRwx = some m' ∧ ∀ page, m'.pageMap page = (m.pageMap page).map rwxAttr

/-- The area `w` continues `u`, up to the permissions: the two have one state and one type, and their memory is in one
piece. -/
def ContinuesInto (u w : VirtualMemoryArea) : Prop :=
  u.meminfoState ≠ .free ∧ u.meminfoState = w.meminfoState ∧ u.type = w.type ∧
    (u.type = .backingMemory → u.backingMemory + u.size = w.backingMemory)

instance (u w : VirtualMemoryArea) : Decidable (ContinuesInto u w) := inferInstanceAs (Decidable (_ ∧ _ ∧ _ ∧ (_ → _)))

def RwxReady : Areas → Prop
  | [] => True
  | u :: rest =>
    (∀ w ∈ rest.head?, ContinuesInto u.2 w.2 →
      w.2.permissions = VMAPermission.readWriteExecute ∧ ∀ x ∈ rest.tail.head?, ¬ ContinuesInto w.2 x.2) ∧ RwxReady rest

variable {u v w x : VirtualMemoryArea}

private theorem mergeable_madeRwx_iff (hv : v.meminfoState ≠ .free) :
    (madeRwx v).Mergeable w ↔ ContinuesInto v w ∧ w.permissions = VMAPermission.readWriteExecute := by
  constructor
  · rintro ⟨hperms, hstate, htype, hbacking⟩
    exact ⟨⟨hv, hstate, htype, hbacking⟩, hperms.symm⟩
  · rintro ⟨⟨-, hstate, htype, hbacking⟩, hperms⟩
    exact ⟨hperms.symm, hstate, htype, hbacking⟩

private theorem continues_iff_mergeable (hu : u.meminfoState ≠ .free → u.permissions = VMAPermission.readWriteExecute)
    (hv : v.meminfoState ≠ .free) : ContinuesInto u v ↔ u.Mergeable (madeRwx v) := by
  constructor
  · rintro ⟨hstate, hsame, htype, hbacking⟩
    exact ⟨hu hstate, hsame, htype, hbacking⟩
  · rintro ⟨-, hsame, htype, hbacking⟩
    have hstate : u.meminfoState ≠ .free := by
      rw [show u.meminfoState = v.meminfoState from hsame]
      exact hv
    exact ⟨hstate, hsame, htype, hbacking⟩

private theorem continues_join_iff (hmerge : (madeRwx v).Mergeable w) :
    ContinuesInto ((madeRwx v).join w) x ↔ ContinuesInto w x := by
  obtain ⟨-, hstate, htype, hbacking⟩ := hmerge
  have hstate : v.meminfoState = w.meminfoState := hstate
  have htype : v.type = w.type := htype
  have hbacking : v.type = .backingMemory → v.backingMemory + v.size = w.backingMemory := hbacking
  have hpiece : (v.type = .backingMemory → v.backingMemory + (v.size + w.size) = x.backingMemory) ↔
      (w.type = .backingMemory → w.backingMemory + w.size = x.backingMemory) := by
    rw [← htype]
    refine forall_congr' fun hb => ?_
    have hend := hbacking hb
    omega
  have hform : ContinuesInto ((madeRwx v).join w) x ↔
      v.meminfoState ≠ .free ∧ v.meminfoState = x.meminfoState ∧ v.type = x.type ∧
        (v.type = .backingMemory → v.backingMemory + (v.size + w.size) = x.backingMemory) := Iff.rfl
  rw [hform, hpiece, hstate, htype]
  exact Iff.rfl

variable {m : VMManager} {pre post : Areas}

private theorem get?_inside {a b y : Nat} (ht : Tiles a (pre ++ (v.base, v) :: post) b) (hy : v.base < y)
    (hy' : y < v.stop) : OrderedMap.get? (pre ++ (v.base, v) :: post) y = none := by
  obtain ⟨hpre, -, -, hpost⟩ := tiles_split.mp ht
  unfold OrderedMap.get?
  rw [Option.map_eq_none_iff, List.find?_eq_none]
  intro p hp
  rw [decide_eq_true_eq]
  rcases List.mem_append.mp hp with hp | hp
  · obtain ⟨hkey, hpos, -, hstop⟩ := hpre.mem hp
    unfold stop at hstop
    omega
  · rcases List.mem_cons.mp hp with rfl | hp
    · exact hy.ne
    · obtain ⟨hkey, -, hle, -⟩ := hpost.mem hp
      omega

private theorem setMmuLoop_free (ht : m.Tiled) (hm : m.vmaMap = pre ++ (v.base, v) :: post)
    (hv : v.meminfoState = .free) (fuel : Nat) :
    setMmuLoop (fuel + 1) (some v.base) m = setMmuLoop fuel (post.head?.map Prod.fst) m := by
  have hget := get?_area ht hm
  unfold Tiled at ht
  rw [hm] at ht
  have hnext : m.vmaMap.next v.base = post.head?.map Prod.fst := by
    rw [hm]
    exact OrderedMap.next_split ht.sorted
  conv_lhs => unfold setMmuLoop
  simp [hget, hv, hnext, guard]

private theorem setMmuLoop_step (ht : m.Tiled) (hl : m.isLocked = false) (hm : m.vmaMap = pre ++ (v.base, v) :: post)
    (hv : v.meminfoState ≠ .free) (fuel : Nat) :
    setMmuLoop (fuel + 1) (some v.base) m =
      if (OrderedMap.get? (mergedAreas pre (madeRwx v) post) v.base).isSome then
        setMmuLoop fuel (OrderedMap.next (mergedAreas pre (madeRwx v) post) v.base)
          { m with vmaMap := mergedAreas pre (madeRwx v) post }
      else none := by
  have hget := get?_area ht hm
  have hupdate : m.updateVMA v.base (reprotected VMAPermission.readWriteExecute) = _ :=
    (updateVMA_eq (f := madeRwx) ht hm rfl rfl).2
  conv_lhs => unfold setMmuLoop
  simp only [hget, Option.bind_eq_bind, Option.bind_some, if_pos hv, reprotect, guard, if_pos hl, hupdate,
    Option.map_some, pure]
  by_cases hsome : (OrderedMap.get? (mergedAreas pre (madeRwx v) post) v.base).isSome = true
  · rw [if_pos hsome, if_pos hsome]
    rfl
  · rw [if_neg hsome, if_neg hsome]
    rfl

/-- The loop can go on from between `pre` and `post`. -/
def ReadyBetween (pre post : Areas) : Prop :=
  (∀ u ∈ pre.getLast?, ∀ v ∈ post.head?, ¬ ContinuesInto u.2 v.2) ∧ RwxReady post

private def Visited (pre : Areas) : Prop :=
  ∀ u ∈ pre.getLast?, u.2.meminfoState ≠ .free → u.2.permissions = VMAPermission.readWriteExecute

private theorem readyBetween_free (hv : v.meminfoState = .free) :
    ReadyBetween pre ((v.base, v) :: post) ↔ ReadyBetween (pre ++ [(v.base, v)]) post := by
  have hfirst : ∀ w : VirtualMemoryArea, ¬ ContinuesInto v w := fun w h => h.1 hv
  have hlast : ∀ u : VirtualMemoryArea, ¬ ContinuesInto u v := fun u h => h.1 (h.2.1.trans hv)
  unfold ReadyBetween
  simp only [RwxReady, List.getLast?_append, List.getLast?_singleton, Option.some_or, Option.mem_def,
    Option.some.injEq, List.head?_cons, forall_eq', hfirst, hlast, not_false_eq_true, implies_true, true_and,
    false_imp_iff]

private theorem readyBetween_apart (hv : v.meminfoState ≠ .free) (hpre : Visited pre)
    (hno : ∀ w ∈ post.head?, ¬ (madeRwx v).Mergeable w.2) :
    ReadyBetween pre ((v.base, v) :: post) ↔
      (∀ u ∈ pre.getLast?, ¬ u.2.Mergeable (madeRwx v)) ∧ ReadyBetween (pre ++ [(v.base, madeRwx v)]) post := by
  have hlast : (∀ u ∈ pre.getLast?, ¬ ContinuesInto u.2 v) ↔ ∀ u ∈ pre.getLast?, ¬ u.2.Mergeable (madeRwx v) :=
    forall₂_congr fun u hu => not_congr (continues_iff_mergeable (hpre u hu) hv)
  have hnext : (∀ w ∈ post.head?, ContinuesInto v w.2 → w.2.permissions = VMAPermission.readWriteExecute ∧
      ∀ x ∈ post.tail.head?, ¬ ContinuesInto w.2 x.2) ↔ ∀ w ∈ post.head?, ¬ ContinuesInto (madeRwx v) w.2 := by
    refine forall₂_congr fun w hw => ?_
    constructor
    · intro h hcontinues
      exact hno w hw ((mergeable_madeRwx_iff hv).mpr ⟨hcontinues, (h hcontinues).1⟩)
    · intro h hcontinues
      exact absurd hcontinues h
  unfold ReadyBetween
  simp only [RwxReady, List.getLast?_append, List.getLast?_singleton, Option.some_or, Option.mem_def,
    Option.some.injEq, List.head?_cons, forall_eq'] at hlast hnext ⊢
  rw [← hlast, ← hnext]

private theorem readyBetween_merged (hv : v.meminfoState ≠ .free) (hpre : Visited pre)
    (hmerge : (madeRwx v).Mergeable w) :
    ReadyBetween pre ((v.base, v) :: (w.base, w) :: post) ↔
      (∀ u ∈ pre.getLast?, ¬ u.2.Mergeable ((madeRwx v).join w)) ∧
        ReadyBetween (pre ++ [(v.base, (madeRwx v).join w)]) post := by
  have hlast : (∀ u ∈ pre.getLast?, ¬ ContinuesInto u.2 v) ↔
      ∀ u ∈ pre.getLast?, ¬ u.2.Mergeable ((madeRwx v).join w) :=
    forall₂_congr fun u hu => not_congr (continues_iff_mergeable (hpre u hu) hv)
  obtain ⟨hcontinues, hperms⟩ := (mergeable_madeRwx_iff hv).mp hmerge
  unfold ReadyBetween
  simp only [RwxReady, List.getLast?_append, List.getLast?_singleton, Option.some_or, Option.mem_def,
    Option.some.injEq, List.head?_cons, List.tail_cons, forall_eq', continues_join_iff hmerge, hcontinues, hperms,
    true_and, forall_true_left] at hlast ⊢
  rw [← hlast]
  constructor
  · rintro ⟨hprev, hnext, -, hready⟩
    exact ⟨hprev, hnext, hready⟩
  · rintro ⟨hprev, hnext, hready⟩
    exact ⟨hprev, hnext, fun x hx h => absurd h (hnext x hx), hready⟩

private theorem attrAt_madeRwx (hv : v.meminfoState ≠ .free) (y : Nat) :
    (madeRwx v).attrAt y = rwxAttr (v.attrAt y) :=
  have hattr : rwxAttr (v.attrAt y) = { v.attrAt y with permissions := VMAPermission.readWriteExecute } := if_neg hv
  hattr.symm

private theorem rwxAttr_of_permissions (hw : w.permissions = VMAPermission.readWriteExecute) (y : Nat) :
    rwxAttr (w.attrAt y) = w.attrAt y := by
  unfold rwxAttr
  split
  · rfl
  · rw [attrAt, ← hw]

/-- What the loop does to the attributes, from between `pre` and `post`. -/
private def RwxFrom (pre post : Areas) (m' : VMManager) : Prop :=
  ∀ y, absAt m'.vmaMap y = (absAt pre y).or ((absAt post y).map rwxAttr)

private theorem rwxFrom_free (hv : v.meminfoState = .free) {m' : VMManager}
    (h : RwxFrom (pre ++ [(v.base, v)]) post m') : RwxFrom pre ((v.base, v) :: post) m' := by
  intro y
  have hself : rwxAttr (v.attrAt y) = v.attrAt y := if_pos hv
  rw [h y, absAt_append, absAt_singleton, absAt_cons, Option.or_assoc]
  congr 1
  split
  · rw [Option.map_some, hself, Option.some_or]
  · rw [Option.none_or]

private theorem rwxFrom_apart (hv : v.meminfoState ≠ .free) {m' : VMManager}
    (h : RwxFrom (pre ++ [(v.base, madeRwx v)]) post m') : RwxFrom pre ((v.base, v) :: post) m' := by
  intro y
  rw [h y, absAt_append, absAt_singleton, absAt_cons, Option.or_assoc]
  congr 1
  show (if v.base ≤ y ∧ y < v.stop then some ((madeRwx v).attrAt y) else none).or _ = _
  by_cases hy : v.base ≤ y ∧ y < v.stop
  · rw [if_pos hy, if_pos hy, Option.map_some, attrAt_madeRwx hv, Option.some_or]
  · rw [if_neg hy, if_neg hy, Option.none_or]

private theorem rwxFrom_merged (hv : v.meminfoState ≠ .free) (hstop : v.stop = w.base) (hpos : 0 < w.size)
    (hmerge : (madeRwx v).Mergeable w) {m' : VMManager}
    (h : RwxFrom (pre ++ [(v.base, (madeRwx v).join w)]) post m') :
    RwxFrom pre ((v.base, v) :: (w.base, w) :: post) m' := by
  obtain ⟨-, hperms⟩ := (mergeable_madeRwx_iff hv).mp hmerge
  intro y
  have hjoin : absAt [(v.base, (madeRwx v).join w)] y = absAt [(v.base, madeRwx v), (w.base, w)] y :=
    absAt_join (v := madeRwx v) hstop hpos hmerge y
  rw [h y, absAt_append, hjoin, absAt_cons, absAt_singleton, absAt_cons, absAt_cons, Option.or_assoc]
  congr 1
  show (if v.base ≤ y ∧ y < v.stop then some ((madeRwx v).attrAt y) else _).or _ = _
  by_cases hy : v.base ≤ y ∧ y < v.stop
  · rw [if_pos hy, if_pos hy, Option.map_some, attrAt_madeRwx hv, Option.some_or]
  · rw [if_neg hy, if_neg hy]
    split
    · rw [Option.map_some, rwxAttr_of_permissions hperms, Option.some_or]
    · rw [Option.none_or]

variable {z : VirtualMemoryArea}

private theorem get?_taken_in {rest : Areas}
    (ht : Tiles 0 (pre ++ (z.base, z) :: rest) maxAddress) (hmerge : ∃ u ∈ pre.getLast?, u.2.Mergeable z) :
    OrderedMap.get? ((joinPrev pre z).1 ++ ((joinPrev pre z).2.base, (joinPrev pre z).2) :: rest) z.base = none := by
  rcases joinPrev_cases pre z with ⟨-, hno⟩ | ⟨u, pre', rfl, hu, hj⟩
  · obtain ⟨u, hu, hmerge⟩ := hmerge
    exact absurd hmerge (hno u hu)
  · have hjoined := (joinPrev_tiles ht).1
    obtain ⟨hpre, -, hpos, -⟩ := tiles_split.mp ht
    obtain ⟨c, -, hlast⟩ := tiles_append.mp hpre
    obtain ⟨-, hbase, hsize, hstop⟩ := hlast
    have hstop : c + u.2.size = z.base := hstop
    rw [hj] at hjoined ⊢
    refine get?_inside hjoined ?_ ?_
    · show u.2.base < z.base
      omega
    · show z.base < u.2.base + (u.2.size + z.size)
      omega

private theorem joinPrev_apart (hno : ∀ u ∈ pre.getLast?, ¬ u.2.Mergeable z) : joinPrev pre z = (pre, z) := by
  rcases joinPrev_cases pre z with ⟨hj, -⟩ | ⟨u, pre', rfl, hu, -⟩
  · exact hj
  · exact absurd hu (hno u (by simp))

private theorem setMmuLoop_turn (ht : m.Tiled) (hl : m.isLocked = false) (hm : m.vmaMap = pre ++ (v.base, v) :: post)
    (hv : v.meminfoState ≠ .free) (fuel : Nat) {rest : Areas} (hz : joinNext (madeRwx v) post = (z, rest)) :
    ((∃ u ∈ pre.getLast?, u.2.Mergeable z) → setMmuLoop (fuel + 1) (some v.base) m = none) ∧
      ((∀ u ∈ pre.getLast?, ¬ u.2.Mergeable z) → Tiles 0 (pre ++ (z.base, z) :: rest) maxAddress ∧
          setMmuLoop (fuel + 1) (some v.base) m =
            setMmuLoop fuel (rest.head?.map Prod.fst) { m with vmaMap := pre ++ (z.base, z) :: rest }) := by
  have hbase : z.base = v.base := by
    have h := joinNext_base (madeRwx v) post
    rw [hz] at h
    exact h
  have htiles : Tiles 0 (pre ++ (z.base, z) :: rest) maxAddress := by
    obtain ⟨htiles, -⟩ := updateVMA_eq (f := madeRwx) ht hm rfl rfl
    have h := (joinNext_tiles htiles).1
    rw [hz] at h
    rw [hbase]
    exact h
  have hareas : mergedAreas pre (madeRwx v) post =
      (joinPrev pre z).1 ++ ((joinPrev pre z).2.base, (joinPrev pre z).2) :: rest := by
    unfold mergedAreas merged
    rw [hz]
  rw [setMmuLoop_step ht hl hm hv, hareas, ← hbase]
  constructor
  · intro hmerge
    rw [get?_taken_in htiles hmerge]
    rfl
  · intro hno
    rw [joinPrev_apart hno, OrderedMap.get?_split htiles.sorted, OrderedMap.next_split htiles.sorted]
    exact ⟨htiles, rfl⟩

private theorem visited_append {k : Nat}
    (hz : z.meminfoState ≠ .free → z.permissions = VMAPermission.readWriteExecute) : Visited (pre ++ [(k, z)]) := by
  intro u hu
  simp only [List.getLast?_append, List.getLast?_singleton, Option.some_or, Option.mem_def, Option.some.injEq] at hu
  subst hu
  exact hz

/-- The loop from between `pre` and `post` ends well exactly when it can go on at every area. -/
private def EndsWell (fuel : Nat) (pre post : Areas) (m : VMManager) : Prop :=
  (ReadyBetween pre post → ∃ m', setMmuLoop fuel (post.head?.map Prod.fst) m = some m' ∧ RwxFrom pre post m') ∧
    (¬ ReadyBetween pre post → setMmuLoop fuel (post.head?.map Prod.fst) m = none)

private theorem endsWell_nil (fuel : Nat) (hm : m.vmaMap = pre) : EndsWell fuel pre [] m := by
  refine ⟨fun _ => ⟨m, ?_, ?_⟩, fun h => absurd ⟨by simp, trivial⟩ h⟩
  · cases fuel <;> rfl
  · intro y
    rw [hm]
    simp [absAt]

private theorem endsWell_turn (ht : m.Tiled) (hl : m.isLocked = false) (hm : m.vmaMap = pre ++ (v.base, v) :: post)
    (hv : v.meminfoState ≠ .free) {fuel : Nat} {rest : Areas} (hz : joinNext (madeRwx v) post = (z, rest))
    (hready : ReadyBetween pre ((v.base, v) :: post) ↔
      (∀ u ∈ pre.getLast?, ¬ u.2.Mergeable z) ∧ ReadyBetween (pre ++ [(z.base, z)]) rest)
    (hattr : ∀ m', RwxFrom (pre ++ [(z.base, z)]) rest m' → RwxFrom pre ((v.base, v) :: post) m')
    (hrest : ∀ m₁ : VMManager, m₁.Tiled → m₁.isLocked = false → m₁.vmaMap = (pre ++ [(z.base, z)]) ++ rest →
      EndsWell fuel (pre ++ [(z.base, z)]) rest m₁) : EndsWell (fuel + 1) pre ((v.base, v) :: post) m := by
  obtain ⟨herased, hon⟩ := setMmuLoop_turn ht hl hm hv fuel hz
  unfold EndsWell
  rw [hready, List.head?_cons, Option.map_some]
  by_cases hprev : ∃ u ∈ pre.getLast?, u.2.Mergeable z
  · refine ⟨?_, fun _ => herased hprev⟩
    rintro ⟨hprev', -⟩
    obtain ⟨u, hu, hmerge⟩ := hprev
    exact absurd hmerge (hprev' u hu)
  · have hprev' : ∀ u ∈ pre.getLast?, ¬ u.2.Mergeable z := fun u hu h => hprev ⟨u, hu, h⟩
    obtain ⟨htiles, hloop⟩ := hon hprev'
    obtain ⟨hends, hstuck⟩ := hrest { m with vmaMap := pre ++ (z.base, z) :: rest } htiles hl (by simp)
    rw [hloop]
    refine ⟨?_, fun h => hstuck fun h' => h ⟨hprev', h'⟩⟩
    rintro ⟨-, h⟩
    obtain ⟨m', hm', hfrom⟩ := hends h
    exact ⟨m', hm', hattr m' hfrom⟩

private theorem setMmuLoop_endsWell {fuel : Nat} (hfuel : post.length ≤ fuel) (ht : m.Tiled) (hl : m.isLocked = false)
    (hm : m.vmaMap = pre ++ post) (hpre : Visited pre) : EndsWell fuel pre post m := by
  induction fuel generalizing pre post m with
  | zero =>
    have hnil : post = [] := List.length_eq_zero_iff.mp (by omega)
    subst hnil
    exact endsWell_nil 0 (by rw [hm, List.append_nil])
  | succ fuel ih =>
    cases post with
    | nil => exact endsWell_nil _ (by rw [hm, List.append_nil])
    | cons e post =>
      obtain ⟨k, v⟩ := e
      have hlength : post.length ≤ fuel := by simpa using hfuel
      have htiles := ht
      unfold Tiled at htiles
      rw [hm] at htiles
      obtain ⟨-, hk, -, hafter⟩ := tiles_split.mp htiles
      subst hk
      by_cases hv : v.meminfoState = .free
      · have hm' : m.vmaMap = (pre ++ [(v.base, v)]) ++ post := by rw [hm]; simp
        obtain ⟨hready, hstuck⟩ := ih hlength ht hl hm' (visited_append fun h => absurd hv h)
        unfold EndsWell
        rw [List.head?_cons, Option.map_some, setMmuLoop_free ht hm hv, readyBetween_free hv]
        refine ⟨?_, hstuck⟩
        intro h
        obtain ⟨m', hloop, hattr⟩ := hready h
        exact ⟨m', hloop, rwxFrom_free hv hattr⟩
      · rcases joinNext_cases (madeRwx v) post with ⟨hz, hno⟩ | ⟨⟨k, w⟩, rest, rfl, hmerge, hz⟩
        · refine endsWell_turn ht hl hm hv hz (readyBetween_apart hv hpre hno) (fun _ => rwxFrom_apart hv) ?_
          intro m₁ ht₁ hl₁ hm₁
          exact ih hlength ht₁ hl₁ hm₁ (visited_append fun _ => rfl)
        · obtain ⟨rfl, hbase, hpos, -⟩ := hafter
          have hbase : w.base = v.stop := hbase
          rw [← hbase] at hm hz ⊢
          refine endsWell_turn ht hl hm hv hz (readyBetween_merged hv hpre hmerge)
            (fun _ => rwxFrom_merged hv hbase.symm hpos hmerge) ?_
          intro m₁ ht₁ hl₁ hm₁
          refine ih ?_ ht₁ hl₁ hm₁ (visited_append fun _ => rfl)
          rw [List.length_cons] at hlength
          omega

/-- The operation makes the whole address space readable, writable and executable, and its loop meets no erased entry,
exactly when the areas are ready. -/
theorem setMmuToRwx_iff (m : VMManager) (hm : m.Reachable) : m.MadeRwx ↔ RwxReady m.vmaMap := by
  have hsound := hm.sound
  have hvisited : Visited [] := by
    intro u hu
    cases hu
  have hstart : EndsWell m.vmaMap.length [] m.vmaMap m :=
    setMmuLoop_endsWell le_rfl hsound.tiled hsound.unlocked rfl hvisited
  obtain ⟨hready, hstuck⟩ := hstart
  have hbetween : ReadyBetween [] m.vmaMap ↔ RwxReady m.vmaMap := by simp [ReadyBetween]
  rw [hbetween] at hready hstuck
  unfold MadeRwx
  constructor
  · rintro ⟨m', hloop, -⟩
    by_contra hnot
    have hnone : m.setMmuToRwx = none := hstuck hnot
    rw [hnone] at hloop
    cases hloop
  · intro h
    obtain ⟨m', hloop, hattr⟩ := hready h
    refine ⟨m', hloop, ?_⟩
    intro page
    have hat := hattr (page * pageSize)
    simp only [absAt, List.find?_nil, Option.map_none, Option.none_or] at hat
    exact hat

theorem setMmuToRwx_iff_sample :
    ∃ m, reset.run sampleOps = some m ∧ (m.MadeRwx ↔ RwxReady m.vmaMap) :=
  ⟨_, rfl, setMmuToRwx_iff _ (Reachable.reset.run sampleOps (by decide) rfl)⟩

/-- Two pages are mapped, and the second one becomes read only. -/
def readOnlyOps : List Op := [.mapBackingMemory 0x1000 0x100000 0x2000 .privateMemory, .reprotectRange 0x2000 0x1000 1]

/-- The second page is merged into the first one when it gets the same permissions, and the loop goes on from its
entry. -/
theorem readOnlyOps_not_madeRwx : ¬ ∀ m : VMManager, m.Reachable → m.MadeRwx := by
  intro h
  obtain ⟨m, hm⟩ : ∃ m, reset.run readOnlyOps = some m := ⟨_, rfl⟩
  obtain ⟨m', hloop, -⟩ := h m (Reachable.reset.run readOnlyOps (by decide) hm)
  have hnone : (reset.run readOnlyOps).bind setMmuToRwx = none := rfl
  rw [hm, Option.bind_some, hloop] at hnone
  cases hnone

end VMManager

end SweepDSEmu
