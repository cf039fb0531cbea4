import Mathlib.Data.List.Chain
import SweepDSEmu.Kernel.VMManager

/-!
# Areas that tile the address space

`Tiles a l b` says that the areas of `l` cover the addresses from `a` to `b` without gap or overlap, each one stored
under its base.  `absAt l x` is what the areas say about the address `x`, and `Canonical l` says that no two
neighbours can be merged.

`SplitVMA` and `MergeAdjacent` keep the tiling and `absAt`.  `MergeAdjacent` also makes the map canonical around the
area it is called for, when both sides of that area are canonical.
-/

namespace SweepDSEmu

open VirtualMemoryArea

/-- What the address space says about one address. -/
structure PageAttr where
  type : VMAType
  permissions : VMAPermission
  meminfoState : MemoryState
  backingMemory : Nat
  deriving DecidableEq

def VirtualMemoryArea.attrAt (v : VirtualMemoryArea) (x : Nat) : PageAttr where
  type := v.type
  permissions := v.permissions
  meminfoState := v.meminfoState
  backingMemory := match v.type with
    | .free => 0
    | .backingMemory => v.backingMemory + (x - v.base)

def VirtualMemoryArea.join (v w : VirtualMemoryArea) : VirtualMemoryArea := { v with size := v.size + w.size }

abbrev Areas := List (Nat × VirtualMemoryArea)

/-- The areas cover the addresses from `a` to `b`. -/
def Tiles : Nat → Areas → Nat → Prop
  | a, [], b => a = b
  | a, (k, v) :: l, b => k = a ∧ v.base = a ∧ 0 < v.size ∧ Tiles (a + v.size) l b

def absAt (l : Areas) (x : Nat) : Option PageAttr :=
  (l.find? fun p => p.2.base ≤ x ∧ x < p.2.stop).map fun p => p.2.attrAt x

def Canonical (l : Areas) : Prop := l.IsChain fun a b => ¬ a.2.Mergeable b.2

instance : DecidablePred Canonical := fun l => inferInstanceAs (Decidable (l.IsChain _))

variable {l : Areas} {a b : Nat}

theorem tiles_append {l l' : Areas} : Tiles a (l ++ l') b ↔ ∃ c, Tiles a l c ∧ Tiles c l' b := by
  induction l generalizing a with
  | nil => simp [Tiles]
  | cons p l ih =>
    obtain ⟨k, v⟩ := p
    simp only [List.cons_append, Tiles, ih]
    constructor
    · rintro ⟨h1, h2, h3, c, h4, h5⟩
      exact ⟨c, ⟨h1, h2, h3, h4⟩, h5⟩
    · rintro ⟨c, ⟨h1, h2, h3, h4⟩, h5⟩
      exact ⟨h1, h2, h3, c, h4, h5⟩

theorem Tiles.le (h : Tiles a l b) : a ≤ b := by
  induction l generalizing a with
  | nil => exact Nat.le_of_eq h
  | cons p l ih =>
    have hle := ih h.2.2.2
    omega

theorem Tiles.mem (h : Tiles a l b) {p : Nat × VirtualMemoryArea} (hp : p ∈ l) :
    p.1 = p.2.base ∧ 0 < p.2.size ∧ a ≤ p.2.base ∧ p.2.stop ≤ b := by
  induction l generalizing a with
  | nil => exact absurd hp List.not_mem_nil
  | cons q l ih =>
    obtain ⟨k, v⟩ := q
    obtain ⟨rfl, hv, hpos, ht⟩ := h
    rcases List.mem_cons.mp hp with rfl | hp
    · have hle := ht.le
      refine ⟨hv.symm, hpos, hv.ge, ?_⟩
      show v.base + v.size ≤ b
      rw [hv]; exact hle
    · obtain ⟨h1, h2, h3, h4⟩ := ih ht hp
      exact ⟨h1, h2, by omega, h4⟩

theorem Tiles.sorted (h : Tiles a l b) : OrderedMap.Sorted l := by
  induction l generalizing a with
  | nil => exact List.Pairwise.nil
  | cons q l ih =>
    obtain ⟨k, v⟩ := q
    obtain ⟨rfl, -, hpos, ht⟩ := h
    refine List.pairwise_cons.mpr ⟨?_, ih ht⟩
    intro p hp
    obtain ⟨h1, -, h3, -⟩ := ht.mem hp
    show k < p.1
    omega

theorem Tiles.unique {a b b' : Nat} (h : Tiles a l b) (h' : Tiles a l b') : b = b' := by
  induction l generalizing a with
  | nil => exact h.symm.trans h'
  | cons p l ih => exact ih h.2.2.2 h'.2.2.2

/-- The area that contains an address, with the areas on its two sides. -/
theorem Tiles.find (h : Tiles a l b) {x : Nat} (ha : a ≤ x) (hb : x < b) :
    ∃ pre v post, l = pre ++ (v.base, v) :: post ∧ v.base ≤ x ∧ x < v.stop := by
  induction l generalizing a with
  | nil => exact absurd h (by show a ≠ b; omega)
  | cons q l ih =>
    obtain ⟨k, v⟩ := q
    obtain ⟨rfl, hv, hpos, ht⟩ := h
    by_cases hx : x < k + v.size
    · exact ⟨[], v, l, by rw [hv]; rfl, by omega, by show x < v.base + v.size; omega⟩
    · obtain ⟨pre, w, post, rfl, h1, h2⟩ := ih ht (by omega)
      exact ⟨(k, v) :: pre, w, post, rfl, h1, h2⟩

theorem tiles_split {pre post : Areas} {k : Nat} {v : VirtualMemoryArea} :
    Tiles a (pre ++ (k, v) :: post) b ↔ Tiles a pre v.base ∧ k = v.base ∧ 0 < v.size ∧ Tiles v.stop post b := by
  rw [tiles_append]
  constructor
  · rintro ⟨c, h1, rfl, hv, h3, h4⟩
    refine ⟨by rw [hv]; exact h1, hv.symm, h3, ?_⟩
    rw [stop, hv]
    exact h4
  · rintro ⟨h1, rfl, h3, h4⟩
    exact ⟨_, h1, rfl, rfl, h3, h4⟩

theorem absAt_append (l l' : Areas) (x : Nat) : absAt (l ++ l') x = (absAt l x).or (absAt l' x) := by
  rw [absAt, List.find?_append, absAt, absAt]
  cases List.find? (fun p : Nat × VirtualMemoryArea => decide (p.2.base ≤ x ∧ x < p.2.stop)) l <;> rfl

theorem absAt_singleton (k : Nat) (v : VirtualMemoryArea) (x : Nat) :
    absAt [(k, v)] x = if v.base ≤ x ∧ x < v.stop then some (v.attrAt x) else none := by
  unfold absAt
  by_cases h : v.base ≤ x ∧ x < v.stop
  · rw [if_pos h, List.find?_cons_of_pos (by simpa using h)]; rfl
  · rw [if_neg h, List.find?_cons_of_neg (by simpa using h)]; rfl

theorem absAt_cons (k : Nat) (v : VirtualMemoryArea) (l : Areas) (x : Nat) :
    absAt ((k, v) :: l) x = if v.base ≤ x ∧ x < v.stop then some (v.attrAt x) else absAt l x := by
  rw [show (k, v) :: l = [(k, v)] ++ l from rfl, absAt_append, absAt_singleton]
  split <;> rfl

theorem Tiles.absAt_outside (h : Tiles a l b) {x : Nat} (hx : x < a ∨ b ≤ x) : absAt l x = none := by
  unfold absAt
  rw [List.find?_eq_none.mpr]
  · rfl
  · intro p hp
    obtain ⟨-, -, h3, h4⟩ := h.mem hp
    have : ¬ (p.2.base ≤ x ∧ x < p.2.stop) := by omega
    simpa using this

theorem absAt_split_mem {pre post : Areas} {k : Nat} {v : VirtualMemoryArea}
    (h : Tiles a (pre ++ (k, v) :: post) b) {x : Nat} (hx : v.base ≤ x) (hx' : x < v.stop) :
    absAt (pre ++ (k, v) :: post) x = some (v.attrAt x) := by
  obtain ⟨h1, -, -, -⟩ := tiles_split.mp h
  rw [absAt_append, h1.absAt_outside (Or.inr hx), Option.none_or, absAt_cons, if_pos ⟨hx, hx'⟩]

theorem join_stop (v w : VirtualMemoryArea) (h : v.stop = w.base) : (v.join w).stop = w.stop := by
  unfold stop join at *
  dsimp only at *
  omega

theorem mergeable_join_right {v w z : VirtualMemoryArea} (h : v.Mergeable w) :
    (v.join w).Mergeable z ↔ w.Mergeable z := by
  obtain ⟨h1, h2, h3, h4⟩ := h
  unfold Mergeable join
  dsimp only
  rw [h1, h2, h3]
  refine and_congr_right fun _ => and_congr_right fun _ => and_congr_right fun _ => ?_
  refine imp_congr_right fun hw => ?_
  have := h4 (h3.trans hw)
  omega

theorem attrAt_join {v w : VirtualMemoryArea} (hstop : v.stop = w.base) (h : v.Mergeable w) {x : Nat}
    (hx : w.base ≤ x) : (v.join w).attrAt x = w.attrAt x := by
  obtain ⟨h1, h2, h3, h4⟩ := h
  unfold attrAt join
  rw [h1, h2, h3]
  cases hw : w.type with
  | free => rfl
  | backingMemory =>
    have := h4 (h3.trans hw)
    unfold stop at hstop
    simp only [PageAttr.mk.injEq, true_and]
    omega

theorem absAt_join {k k' : Nat} {v w : VirtualMemoryArea} (hstop : v.stop = w.base) (hpos : 0 < w.size)
    (h : v.Mergeable w) (x : Nat) : absAt [(k, v.join w)] x = absAt [(k, v), (k', w)] x := by
  rw [absAt_singleton, absAt_cons, absAt_singleton, join_stop v w hstop, show (v.join w).base = v.base from rfl]
  have hws : w.base < w.stop := by unfold stop; omega
  have hvs : v.base ≤ v.stop := by unfold stop; omega
  by_cases hx : v.base ≤ x ∧ x < v.stop
  · rw [if_pos hx, if_pos (show v.base ≤ x ∧ x < w.stop by omega)]
    rfl
  · rw [if_neg hx]
    by_cases hx' : w.base ≤ x ∧ x < w.stop
    · rw [if_pos hx', if_pos (show v.base ≤ x ∧ x < w.stop by omega), attrAt_join hstop h hx'.1]
    · rw [if_neg hx', if_neg]
      intro hc
      have hc1 : v.base ≤ x := hc.1
      omega

theorem splitLeft_stop (v : VirtualMemoryArea) (n : Nat) : (v.splitLeft n).stop = v.base + n := rfl

theorem splitRight_base (v : VirtualMemoryArea) (n : Nat) : (v.splitRight n).base = v.base + n := rfl

theorem splitRight_stop (v : VirtualMemoryArea) {n : Nat} (h : n < v.size) : (v.splitRight n).stop = v.stop := by
  unfold stop splitRight
  dsimp only
  omega

theorem split_mergeable (v : VirtualMemoryArea) (n : Nat) : (v.splitLeft n).Mergeable (v.splitRight n) := by
  unfold Mergeable splitLeft splitRight
  refine ⟨rfl, rfl, rfl, ?_⟩
  intro h
  rw [h]

theorem split_join (v : VirtualMemoryArea) {n : Nat} (h : n < v.size) : (v.splitLeft n).join (v.splitRight n) = v := by
  unfold splitLeft splitRight join
  rw [show n + (v.size - n) = v.size by omega]

theorem splitRight_mergeable {v w : VirtualMemoryArea} {n : Nat} (h : n < v.size) :
    (v.splitRight n).Mergeable w ↔ v.Mergeable w := by
  conv => rhs; rw [← split_join v h]
  exact (mergeable_join_right (split_mergeable v n)).symm

theorem absAt_splitVMA (v : VirtualMemoryArea) {n : Nat} (h : n < v.size) (k k' k'' x : Nat) :
    absAt [(k, v.splitLeft n), (k', v.splitRight n)] x = absAt [(k'', v)] x := by
  have hpos : 0 < (v.splitRight n).size := by show 0 < v.size - n; omega
  have hj : absAt [(k, (v.splitLeft n).join (v.splitRight n))] x =
      absAt [(k, v.splitLeft n), (k', v.splitRight n)] x :=
    absAt_join (splitLeft_stop v n) hpos (split_mergeable v n) x
  rw [← hj, split_join v h, absAt_singleton, absAt_singleton]

namespace VMManager

def Tiled (m : VMManager) : Prop := Tiles 0 m.vmaMap maxAddress

section Operations

variable {m : VMManager} {pre post : Areas} {v : VirtualMemoryArea}

theorem findVMA_eq (ht : m.Tiled) (hm : m.vmaMap = pre ++ (v.base, v) :: post) {x : Nat} (hx : v.base ≤ x)
    (hx' : x < v.stop) : m.findVMA x = some v.base := by
  unfold Tiled at ht
  rw [hm] at ht
  have hsplit := tiles_split.mp ht
  have hlt : x < maxAddress := by have := hsplit.2.2.2.le; omega
  unfold findVMA
  rw [if_neg (by omega), hm]
  refine OrderedMap.prev_upperBound_split ht.sorted hx ?_
  intro p hp
  obtain ⟨h1, -, h3, -⟩ := hsplit.2.2.2.mem hp
  omega

theorem findVMA_none (m : VMManager) {x : Nat} (hx : maxAddress ≤ x) : m.findVMA x = none := if_pos hx

theorem get?_area (ht : m.Tiled) (hm : m.vmaMap = pre ++ (v.base, v) :: post) : m.vmaMap.get? v.base = some v := by
  unfold Tiled at ht
  rw [hm] at ht ⊢
  exact OrderedMap.get?_split ht.sorted

theorem splitVMA_eq (ht : m.Tiled) (hm : m.vmaMap = pre ++ (v.base, v) :: post) {n : Nat} (h0 : 0 < n)
    (hn : n < v.size) :
    m.splitVMA v.base n = some (v.base + n, { m with
      vmaMap := pre ++ (v.base, v.splitLeft n) :: (v.base + n, v.splitRight n) :: post }) := by
  have hget := get?_area ht hm
  unfold Tiled at ht
  rw [hm] at ht
  have hsplit := tiles_split.mp ht
  have hcan : (v.splitLeft n).canBeMergedWith (v.splitRight n) = some true := by
    unfold canBeMergedWith
    rw [if_pos (show (v.splitLeft n).stop = (v.splitRight n).base from rfl)]
    simp [split_mergeable v n]
  have hempl : OrderedMap.emplace (pre ++ (v.base, v.splitLeft n) :: post) (v.base + n) (v.splitRight n) =
      pre ++ (v.base, v.splitLeft n) :: (v.base + n, v.splitRight n) :: post := by
    have happ : ∀ l : Areas, pre ++ (v.base, v.splitLeft n) :: l = (pre ++ [(v.base, v.splitLeft n)]) ++ l := by simp
    rw [happ post, happ (_ :: post)]
    refine OrderedMap.emplace_split ?_ ?_ _
    · intro p hp
      rcases List.mem_append.mp hp with hp | hp
      · obtain ⟨h1, h2, -, h4⟩ := hsplit.1.mem hp
        unfold stop at h4
        omega
      · rw [List.mem_singleton.mp hp]
        show v.base < v.base + n
        omega
    · intro p hp
      obtain ⟨h1, h2, h3, -⟩ := hsplit.2.2.2.mem hp
      unfold stop at h3
      omega
  unfold splitVMA
  rw [hget]
  simp only [Option.bind_eq_bind, Option.bind_some, guard, if_pos hn, if_pos h0, hcan, if_true, pure, splitRight_base]
  rw [hm, OrderedMap.modify_split ht.sorted, hempl]

/-- What the next areas become when `v` is merged with the first of them. -/
def joinNext (v : VirtualMemoryArea) : Areas → VirtualMemoryArea × Areas
  | [] => (v, [])
  | (k, w) :: post => if v.Mergeable w then (v.join w, post) else (v, (k, w) :: post)

theorem joinNext_cases (v : VirtualMemoryArea) (post : Areas) :
    (joinNext v post = (v, post) ∧ ∀ n ∈ post.head?, ¬ v.Mergeable n.2) ∨
      ∃ n post', post = n :: post' ∧ v.Mergeable n.2 ∧ joinNext v post = (v.join n.2, post') := by
  cases post with
  | nil => exact Or.inl ⟨rfl, fun n hn => nomatch hn⟩
  | cons n post =>
    by_cases h : v.Mergeable n.2
    · exact Or.inr ⟨n, post, rfl, h, if_pos h⟩
    · refine Or.inl ⟨if_neg h, ?_⟩
      intro n' hn'
      cases hn'
      exact h

theorem mergeNext_eq (ht : m.Tiled) (hm : m.vmaMap = pre ++ (v.base, v) :: post) :
    m.mergeNext v.base = some { m with vmaMap := pre ++ (v.base, (joinNext v post).1) :: (joinNext v post).2 } := by
  have hget := get?_area ht hm
  have ht' := ht
  unfold Tiled at ht'
  rw [hm] at ht'
  have hnext : m.vmaMap.next v.base = post.head?.map Prod.fst := by
    rw [hm]; exact OrderedMap.next_split ht'.sorted
  unfold mergeNext
  cases post with
  | nil =>
    rw [hnext]
    show some m = _
    rw [joinNext, ← hm]
  | cons n post =>
    obtain ⟨k, w⟩ := n
    obtain ⟨hpre, -, -, rfl, hw, hpos, -⟩ := tiles_split.mp ht'
    have happ : ∀ v' : VirtualMemoryArea, pre ++ (v.base, v') :: (v.stop, w) :: post =
        (pre ++ [(v.base, v')]) ++ (v.stop, w) :: post := by simp
    have hgetw : m.vmaMap.get? v.stop = some w := by
      rw [hm, happ]
      rw [happ] at ht'
      exact OrderedMap.get?_split ht'.sorted
    rw [hnext]
    simp only [List.head?_cons, Option.map_some, hget, hgetw, Option.bind_eq_bind, Option.bind_some,
      canBeMergedWith, if_pos hw.symm, joinNext]
    by_cases hmerge : v.Mergeable w
    · simp only [hmerge, decide_true, if_true, pure]
      rw [hm, OrderedMap.modify_split ht'.sorted, happ]
      have hsorted : OrderedMap.Sorted (pre ++ [(v.base, v.join w)] ++ (v.stop, w) :: post) := by
        have := ht'.sorted
        unfold OrderedMap.Sorted at this ⊢
        rw [← List.pairwise_map (f := Prod.fst)] at this ⊢
        simpa using this
      have herase := OrderedMap.erase_split hsorted
      rw [show ({ v with size := v.size + w.size } : VirtualMemoryArea) = v.join w from rfl, herase]
      simp
    · simp only [hmerge, decide_false, Bool.false_eq_true, if_false, pure, ← hm]

/-- What the previous areas become when the last of them is merged with `v`. -/
def joinPrev (pre : Areas) (v : VirtualMemoryArea) : Areas × VirtualMemoryArea :=
  match pre.getLast? with
  | none => (pre, v)
  | some u => if u.2.Mergeable v then (pre.dropLast, u.2.join v) else (pre, v)

theorem joinPrev_cases (pre : Areas) (v : VirtualMemoryArea) :
    (joinPrev pre v = (pre, v) ∧ ∀ u ∈ pre.getLast?, ¬ u.2.Mergeable v) ∨
      ∃ u pre', pre = pre' ++ [u] ∧ u.2.Mergeable v ∧ joinPrev pre v = (pre', u.2.join v) := by
  rcases List.eq_nil_or_concat pre with rfl | ⟨pre', u, rfl⟩
  · exact Or.inl ⟨rfl, fun n hn => nomatch hn⟩
  · unfold joinPrev
    simp only [List.concat_eq_append, List.getLast?_append, List.getLast?_singleton, Option.some_or,
      List.dropLast_concat]
    by_cases h : u.2.Mergeable v
    · exact Or.inr ⟨u, pre', rfl, h, if_pos h⟩
    · refine Or.inl ⟨if_neg h, ?_⟩
      intro u' hu'
      cases hu'
      exact h

theorem mergePrev_eq (ht : m.Tiled) (hm : m.vmaMap = pre ++ (v.base, v) :: post) :
    m.mergePrev v.base = some ((joinPrev pre v).2.base, { m with
      vmaMap := (joinPrev pre v).1 ++ ((joinPrev pre v).2.base, (joinPrev pre v).2) :: post }) := by
  have hget := get?_area ht hm
  have ht' := ht
  unfold Tiled at ht'
  rw [hm] at ht'
  have hprev : m.vmaMap.prev (some v.base) = pre.getLast?.map Prod.fst := by
    rw [hm]; exact OrderedMap.prev_split ht'.sorted
  unfold mergePrev
  rcases List.eq_nil_or_concat pre with rfl | ⟨pre', ⟨k, u⟩, rfl⟩
  · rw [hprev]
    show some (v.base, m) = _
    simp only [joinPrev, List.getLast?_nil, ← hm]
  · rw [List.concat_eq_append] at *
    have happ : ∀ u' : VirtualMemoryArea, (pre' ++ [(k, u')]) ++ (v.base, v) :: post =
        pre' ++ (k, u') :: (v.base, v) :: post := by simp
    obtain ⟨hpre, -⟩ := tiles_split.mp ht'
    obtain ⟨-, rfl, -, hstop⟩ := tiles_split.mp hpre
    have hstop : u.stop = v.base := hstop
    have hgetu : m.vmaMap.get? u.base = some u := by
      rw [hm, happ]
      rw [happ] at ht'
      exact OrderedMap.get?_split ht'.sorted
    rw [hprev]
    simp only [List.getLast?_append, List.getLast?_singleton, Option.some_or, Option.map_some, hget, hgetu,
      Option.bind_eq_bind, Option.bind_some, canBeMergedWith, if_pos hstop, joinPrev, List.dropLast_concat]
    by_cases hmerge : u.Mergeable v
    · simp only [hmerge, decide_true, if_true, pure]
      rw [hm, happ]
      rw [happ] at ht'
      rw [OrderedMap.modify_split ht'.sorted]
      have hsorted : OrderedMap.Sorted (pre' ++ [(u.base, u.join v)] ++ (v.base, v) :: post) := by
        have := ht'.sorted
        unfold OrderedMap.Sorted at this ⊢
        rw [← List.pairwise_map (f := Prod.fst)] at this ⊢
        simpa using this
      have herase := OrderedMap.erase_split hsorted
      rw [show ({ u with size := u.size + v.size } : VirtualMemoryArea) = u.join v from rfl, ← happ, herase]
      simp only [List.append_assoc, List.singleton_append]
      rfl
    · simp only [hmerge, decide_false, Bool.false_eq_true, if_false, pure, ← hm]

theorem joinNext_base (v : VirtualMemoryArea) (post : Areas) : (joinNext v post).1.base = v.base := by
  rcases joinNext_cases v post with ⟨h, -⟩ | ⟨n, post', -, -, h⟩ <;> rw [h]
  rfl

theorem joinNext_tiles {a b : Nat} (h : Tiles a (pre ++ (v.base, v) :: post) b) :
    Tiles a (pre ++ (v.base, (joinNext v post).1) :: (joinNext v post).2) b ∧
      ∀ x, absAt (pre ++ (v.base, (joinNext v post).1) :: (joinNext v post).2) x =
        absAt (pre ++ (v.base, v) :: post) x := by
  rcases joinNext_cases v post with ⟨hj, -⟩ | ⟨⟨k, w⟩, post', rfl, hmerge, hj⟩ <;> rw [hj]
  · exact ⟨h, fun _ => rfl⟩
  · obtain ⟨h1, -, h3, rfl, hw, hpos, h5⟩ := tiles_split.mp h
    constructor
    · refine tiles_split.mpr ⟨h1, rfl, ?_, ?_⟩
      · show 0 < v.size + w.size
        omega
      · rw [join_stop v w hw.symm]
        unfold stop
        rw [hw]
        exact h5
    · intro x
      show absAt (pre ++ ([(v.base, v.join w)] ++ post')) x = absAt (pre ++ ([(v.base, v), (v.stop, w)] ++ post')) x
      have hj : absAt [(v.base, v.join w)] x = absAt [(v.base, v), (v.stop, w)] x := absAt_join hw.symm hpos hmerge x
      simp only [absAt_append, hj]

theorem joinPrev_tiles {a b : Nat} (h : Tiles a (pre ++ (v.base, v) :: post) b) :
    Tiles a ((joinPrev pre v).1 ++ ((joinPrev pre v).2.base, (joinPrev pre v).2) :: post) b ∧
      ∀ x, absAt ((joinPrev pre v).1 ++ ((joinPrev pre v).2.base, (joinPrev pre v).2) :: post) x =
        absAt (pre ++ (v.base, v) :: post) x := by
  rcases joinPrev_cases pre v with ⟨hj, -⟩ | ⟨⟨k, u⟩, pre', rfl, hmerge, hj⟩ <;> rw [hj]
  · exact ⟨h, fun _ => rfl⟩
  · obtain ⟨h1, -, h3, h4⟩ := tiles_split.mp h
    obtain ⟨h5, rfl, h6, h7⟩ := tiles_split.mp h1
    have hstop : u.stop = v.base := h7
    constructor
    · refine tiles_split.mpr ⟨h5, rfl, ?_, ?_⟩
      · show 0 < u.size + v.size
        omega
      · show Tiles (u.join v).stop post b
        rw [join_stop u v hstop]
        exact h4
    · intro x
      show absAt (pre' ++ ([(u.base, u.join v)] ++ post)) x = absAt (pre' ++ [(u.base, u)] ++ ([(v.base, v)] ++ post)) x
      have hj : absAt [(u.base, u.join v)] x = absAt ([(u.base, u)] ++ [(v.base, v)]) x := absAt_join hstop h3 hmerge x
      simp only [absAt_append, hj, Option.or_assoc]

/-- The areas after `MergeAdjacent` for `v`: those before, the merged one and those after. -/
def merged (pre : Areas) (v : VirtualMemoryArea) (post : Areas) : Areas × VirtualMemoryArea × Areas :=
  ((joinPrev pre (joinNext v post).1).1, (joinPrev pre (joinNext v post).1).2, (joinNext v post).2)

/-- The list of the areas after `MergeAdjacent`. -/
def mergedAreas (pre : Areas) (v : VirtualMemoryArea) (post : Areas) : Areas :=
  (merged pre v post).1 ++ ((merged pre v post).2.1.base, (merged pre v post).2.1) :: (merged pre v post).2.2

theorem mergeAdjacent_eq (ht : m.Tiled) (hm : m.vmaMap = pre ++ (v.base, v) :: post) :
    m.mergeAdjacent v.base = some ((merged pre v post).2.1.base, { m with vmaMap := mergedAreas pre v post }) := by
  have hbase := joinNext_base v post
  unfold mergeAdjacent
  rw [mergeNext_eq ht hm]
  unfold Tiled at ht
  rw [hm] at ht
  have hnext := (joinNext_tiles ht).1
  rw [← hbase] at hnext ⊢
  exact mergePrev_eq (m := { m with vmaMap := _ }) hnext rfl

theorem mergedAreas_tiles {a b : Nat} (h : Tiles a (pre ++ (v.base, v) :: post) b) :
    Tiles a (mergedAreas pre v post) b ∧ ∀ x, absAt (mergedAreas pre v post) x = absAt (pre ++ (v.base, v) :: post) x := by
  obtain ⟨h1, h2⟩ := joinNext_tiles h
  rw [← joinNext_base v post] at h1
  obtain ⟨h3, h4⟩ := joinPrev_tiles h1
  refine ⟨h3, fun x => (h4 x).trans ?_⟩
  rw [joinNext_base v post]
  exact h2 x

/-- When both sides of an area are canonical, the map is canonical after `MergeAdjacent`. -/
theorem mergedAreas_canonical (hpre : Canonical pre) (hpost : Canonical post) : Canonical (mergedAreas pre v post) := by
  -- the areas from `v` on
  have hnext : Canonical ((v.base, (joinNext v post).1) :: (joinNext v post).2) := by
    rcases joinNext_cases v post with ⟨hj, hno⟩ | ⟨n, post', rfl, hmerge, hj⟩ <;> rw [hj]
    · exact List.isChain_cons.mpr ⟨hno, hpost⟩
    · obtain ⟨h1, h2⟩ := List.isChain_cons.mp hpost
      refine List.isChain_cons.mpr ⟨?_, h2⟩
      intro y hy
      exact (mergeable_join_right hmerge).not.mpr (h1 y hy)
  obtain ⟨h1, h2⟩ := List.isChain_cons.mp hnext
  unfold mergedAreas merged
  rcases joinPrev_cases pre (joinNext v post).1 with ⟨hj, hno⟩ | ⟨u, pre', rfl, hmerge, hj⟩ <;> rw [hj]
  · refine List.isChain_append.mpr ⟨hpre, List.isChain_cons.mpr ⟨h1, h2⟩, ?_⟩
    intro x hx y hy
    cases hy
    exact hno x hx
  · obtain ⟨h3, -, h5⟩ := List.isChain_append.mp hpre
    refine List.isChain_append.mpr ⟨h3, List.isChain_cons.mpr ⟨?_, h2⟩, ?_⟩
    · intro y hy
      exact (mergeable_join_right hmerge).not.mpr (h1 y hy)
    · intro x hx y hy
      cases hy
      exact h5 x hx u rfl

theorem updateVMA_eq (ht : m.Tiled) (hm : m.vmaMap = pre ++ (v.base, v) :: post)
    {f : VirtualMemoryArea → VirtualMemoryArea} (hbase : (f v).base = v.base) (hsize : (f v).size = v.size) :
    Tiles 0 (pre ++ ((f v).base, f v) :: post) maxAddress ∧
      m.updateVMA v.base f = some ((merged pre (f v) post).2.1.base, { m with vmaMap := mergedAreas pre (f v) post }) := by
  unfold Tiled at ht
  rw [hm] at ht
  have ht' : Tiles 0 (pre ++ ((f v).base, f v) :: post) maxAddress := by
    obtain ⟨h1, -, h3, h4⟩ := tiles_split.mp ht
    have hstop : (f v).stop = v.stop := by unfold stop; rw [hbase, hsize]
    exact tiles_split.mpr ⟨hbase ▸ h1, rfl, hsize ▸ h3, hstop ▸ h4⟩
  refine ⟨ht', ?_⟩
  unfold updateVMA
  rw [hm, OrderedMap.modify_split ht.sorted, ← hbase]
  exact mergeAdjacent_eq (m := { m with vmaMap := _ }) ht' rfl

end Operations

end VMManager

end SweepDSEmu
