import Mathlib.Algebra.Group.Nat.Defs
import Mathlib.Data.List.Sort

/-!
# Ordered maps with iterators

A map as the list of its entries in the order of the keys.  An iterator is the key of the entry it points to, so it
stays valid while other entries come and go; the iterator past the end is `none`.

The lemmas describe each operation on a map that is split at an entry, `pre ++ (k, v) :: post`: the entry before is
the last one of `pre`, the entry after is the first one of `post`, and an update leaves both parts alone.
-/

namespace SweepDSEmu

abbrev OrderedMap (κ α : Type*) := List (κ × α)

namespace OrderedMap

variable {κ α : Type*} [LinearOrder κ]

/-- The entries are in the strict order of their keys. -/
def Sorted (m : OrderedMap κ α) : Prop := m.Pairwise fun a b => a.1 < b.1

def get? (m : OrderedMap κ α) (k : κ) : Option α := (m.find? fun p => p.1 = k).map Prod.snd

/-- The first entry whose key is greater than `k`. -/
def upperBound (m : OrderedMap κ α) (k : κ) : Option κ := (m.find? fun p => k < p.1).map Prod.fst

/-- The first entry whose key is not less than `k`. -/
def lowerBound (m : OrderedMap κ α) (k : κ) : Option κ := (m.find? fun p => k ≤ p.1).map Prod.fst

def next (m : OrderedMap κ α) (k : κ) : Option κ := m.upperBound k

/-- The iterator before `it`; `none` when `it` is the first entry. -/
def prev (m : OrderedMap κ α) : Option κ → Option κ
  | none => m.getLast?.map Prod.fst
  | some k => (m.filter fun p => p.1 < k).getLast?.map Prod.fst

/-- The entries from the iterator `k` up to the iterator `stop`. -/
def range (m : OrderedMap κ α) (k : κ) (stop : Option κ) : List (κ × α) :=
  m.filter fun p => k ≤ p.1 ∧ ∀ e, stop = some e → p.1 < e

def modify (m : OrderedMap κ α) (k : κ) (f : α → α) : OrderedMap κ α :=
  m.map fun p => if p.1 = k then (p.1, f p.2) else p

def erase (m : OrderedMap κ α) (k : κ) : OrderedMap κ α := m.filter fun p => p.1 ≠ k

/-- Adds an entry; an entry with the same key stays as it is. -/
def emplace (m : OrderedMap κ α) (k : κ) (v : α) : OrderedMap κ α :=
  if m.any fun p => p.1 = k then m
  else (m.takeWhile fun p => p.1 < k) ++ (k, v) :: m.dropWhile fun p => p.1 < k

section Split

variable {pre post : List (κ × α)} {k : κ} {v : α}

theorem Sorted.split (h : Sorted (pre ++ (k, v) :: post)) :
    (∀ p ∈ pre, p.1 < k) ∧ ∀ p ∈ post, k < p.1 := by
  obtain ⟨-, h2, h3⟩ := List.pairwise_append.mp h
  refine ⟨fun p hp => h3 p hp (k, v) List.mem_cons_self, ?_⟩
  exact fun p hp => (List.pairwise_cons.mp h2).1 p hp

omit [LinearOrder κ] in
private theorem find?_skip {p : κ × α → Bool} {l l' : List (κ × α)} (h : ∀ x ∈ l, p x = false) :
    (l ++ l').find? p = l'.find? p := by
  rw [List.find?_append, List.find?_eq_none.mpr (by simpa using h), Option.none_or]

omit [LinearOrder κ] in
private theorem find?_first {p : κ × α → Bool} {l : List (κ × α)} (h : ∀ x ∈ l, p x = true) :
    l.find? p = l.head? := by
  cases l with
  | nil => rfl
  | cons x l => rw [List.find?_cons_of_pos (h x List.mem_cons_self)]; rfl

theorem get?_split (h : Sorted (pre ++ (k, v) :: post)) : get? (pre ++ (k, v) :: post) k = some v := by
  obtain ⟨hpre, -⟩ := h.split
  rw [get?, find?_skip, List.find?_cons_of_pos (by simp)]
  · rfl
  · intro p hp
    simpa using (hpre p hp).ne

theorem upperBound_split {t : κ} (hpre : ∀ p ∈ pre, p.1 ≤ t) (hpost : ∀ p ∈ post, t < p.1) :
    upperBound (pre ++ post) t = post.head?.map Prod.fst := by
  rw [upperBound, find?_skip, find?_first]
  · intro p hp
    simpa using hpost p hp
  · intro p hp
    simpa using hpre p hp

theorem next_split (h : Sorted (pre ++ (k, v) :: post)) :
    next (pre ++ (k, v) :: post) k = post.head?.map Prod.fst := by
  obtain ⟨hpre, hpost⟩ := h.split
  have happ : pre ++ (k, v) :: post = (pre ++ [(k, v)]) ++ post := by simp
  rw [next, happ]
  refine upperBound_split ?_ hpost
  intro p hp
  rcases List.mem_append.mp hp with hp | hp
  · exact (hpre p hp).le
  · rw [List.mem_singleton.mp hp]

theorem prev_split (h : Sorted (pre ++ (k, v) :: post)) :
    prev (pre ++ (k, v) :: post) (some k) = pre.getLast?.map Prod.fst := by
  obtain ⟨hpre, hpost⟩ := h.split
  have hfilter : (pre ++ (k, v) :: post).filter (fun p => p.1 < k) = pre := by
    rw [List.filter_append, List.filter_cons_of_neg (by simp), List.filter_eq_self.mpr (by simpa using hpre),
      List.filter_eq_nil_iff.mpr (by simpa using fun a b hab => (hpost (a, b) hab).le), List.append_nil]
  rw [prev, hfilter]

/-- The entry before the upper bound of `t` is the last one whose key is at most `t`. -/
theorem prev_upperBound_split (h : Sorted (pre ++ (k, v) :: post)) {t : κ} (hk : k ≤ t) (hpost : ∀ p ∈ post, t < p.1) :
    prev (pre ++ (k, v) :: post) (upperBound (pre ++ (k, v) :: post) t) = some k := by
  obtain ⟨hpre, -⟩ := h.split
  have happ : pre ++ (k, v) :: post = (pre ++ [(k, v)]) ++ post := by simp
  have hupper : upperBound (pre ++ (k, v) :: post) t = post.head?.map Prod.fst := by
    rw [happ]
    refine upperBound_split ?_ hpost
    intro p hp
    rcases List.mem_append.mp hp with hp | hp
    · exact (hpre p hp).le.trans hk
    · rw [List.mem_singleton.mp hp]; exact hk
  rw [hupper]
  cases post with
  | nil => simp [prev]
  | cons p post =>
    rw [happ] at h ⊢
    show prev _ (some p.1) = some k
    rw [prev_split h]
    simp

theorem prev_next_split (h : Sorted (pre ++ (k, v) :: post)) :
    prev (pre ++ (k, v) :: post) (next (pre ++ (k, v) :: post) k) = some k :=
  prev_upperBound_split h le_rfl h.split.2

theorem prev_head (h : Sorted (pre ++ post)) :
    prev (pre ++ post) (post.head?.map Prod.fst) = pre.getLast?.map Prod.fst := by
  cases post with
  | nil => simp [prev]
  | cons e post => exact prev_split h

theorem modify_split (h : Sorted (pre ++ (k, v) :: post)) (f : α → α) :
    modify (pre ++ (k, v) :: post) k f = pre ++ (k, f v) :: post := by
  obtain ⟨hpre, hpost⟩ := h.split
  have hkeep : ∀ l : List (κ × α), (∀ p ∈ l, p.1 ≠ k) → (l.map fun p => if p.1 = k then (p.1, f p.2) else p) = l := by
    intro l hl
    rw [List.map_congr_left (g := id), List.map_id]
    intro p hp
    exact if_neg (hl p hp)
  rw [modify, List.map_append, List.map_cons, if_pos rfl, hkeep pre fun p hp => (hpre p hp).ne,
    hkeep post fun p hp => (hpost p hp).ne']

theorem erase_split (h : Sorted (pre ++ (k, v) :: post)) : erase (pre ++ (k, v) :: post) k = pre ++ post := by
  obtain ⟨hpre, hpost⟩ := h.split
  rw [erase, List.filter_append, List.filter_cons_of_neg (by simp)]
  rw [List.filter_eq_self.mpr fun p hp => by simpa using (hpre p hp).ne]
  rw [List.filter_eq_self.mpr fun p hp => by simpa using (hpost p hp).ne']

theorem emplace_split (hpre : ∀ p ∈ pre, p.1 < k) (hpost : ∀ p ∈ post, k < p.1) (w : α) :
    emplace (pre ++ post) k w = pre ++ (k, w) :: post := by
  have hany : ¬ ((pre ++ post).any fun p => p.1 = k) = true := by
    rw [List.any_eq_true]
    rintro ⟨p, hp, heq⟩
    have heq : p.1 = k := by simpa using heq
    rcases List.mem_append.mp hp with hp | hp
    · exact (hpre p hp).ne heq
    · exact (hpost p hp).ne' heq
  have htake : (pre ++ post).takeWhile (fun p => p.1 < k) = pre := by
    rw [List.takeWhile_append_of_pos (by simpa using hpre)]
    cases post with
    | nil => simp
    | cons p post => rw [List.takeWhile_cons_of_neg (by simpa using (hpost p List.mem_cons_self).le), List.append_nil]
  have hdrop : (pre ++ post).dropWhile (fun p => p.1 < k) = post := by
    rw [List.dropWhile_append_of_pos (by simpa using hpre)]
    cases post with
    | nil => rfl
    | cons p post => rw [List.dropWhile_cons_of_neg (by simpa using (hpost p List.mem_cons_self).le)]
  rw [emplace, if_neg hany, htake, hdrop]

end Split

theorem get?_emplace (m : OrderedMap κ α) (k k' : κ) (v : α) :
    (m.emplace k v).get? k' = if k' = k then some ((m.get? k).getD v) else m.get? k' := by
  unfold emplace get?
  by_cases hm : m.any fun p => p.1 = k
  · split_ifs with hk
    · subst hk
      obtain ⟨p, hp⟩ : ∃ p, m.find? (fun p => p.1 = k') = some p := by
        rw [← Option.isSome_iff_exists]
        simpa using hm
      simp [hp]
    · rfl
  · have hskip : ∀ p ∈ m, p.1 ≠ k := by
      intro p hp heq
      exact hm (List.any_eq_true.mpr ⟨p, hp, by simpa using heq⟩)
    have hsplit := List.takeWhile_append_dropWhile (p := fun p => decide (p.1 < k)) (l := m)
    split_ifs with hk
    · subst hk
      have hnone : m.find? (fun p => p.1 = k') = none := by
        simpa using hskip
      have hpre : (m.takeWhile fun p => p.1 < k').find? (fun p => p.1 = k') = none := by
        rw [List.find?_eq_none]
        intro p hp
        simpa using hskip p (List.takeWhile_subset _ hp)
      rw [List.find?_append, hpre, hnone]
      simp
    · have hne : ¬ k = k' := fun h => hk h.symm
      have happ := congrArg (List.find? fun p => decide (p.1 = k')) hsplit
      rw [List.find?_append] at happ
      rw [← happ, List.find?_append, List.find?_cons_of_neg (by simpa using hne)]

theorem get?_erase (m : OrderedMap κ α) (k k' : κ) :
    (m.erase k).get? k' = if k' = k then none else m.get? k' := by
  unfold erase get?
  rw [List.find?_filter]
  split_ifs with hk
  · subst hk
    simp
  · congr 2
    funext p
    by_cases hp : p.1 = k'
    · simp [hp, hk]
    · simp [hp]

theorem get?_modify (m : OrderedMap κ α) (k k' : κ) (f : α → α) :
    (m.modify k f).get? k' = if k' = k then (m.get? k).map f else m.get? k' := by
  unfold modify get?
  have hkey : ((fun p : κ × α => decide (p.1 = k')) ∘ fun p : κ × α => if p.1 = k then (p.1, f p.2) else p) =
      fun p => decide (p.1 = k') := by
    funext p
    by_cases hp : p.1 = k
    · simp [hp]
    · simp [hp]
  rw [List.find?_map, hkey]
  cases hfind : m.find? fun p => p.1 = k' with
  | none =>
    split_ifs with hk
    · subst hk
      simp [hfind]
    · rfl
  | some p =>
    have hp : p.1 = k' := by simpa using List.find?_some hfind
    split_ifs with hk
    · subst hk
      simp [hfind, hp]
    · simp [hp, hk]

theorem mem_range_lowerBound {m : OrderedMap κ α} (h : Sorted m) {k e : κ} {p : κ × α} :
    p ∈ m.range k (m.lowerBound e) ↔ p ∈ m ∧ k ≤ p.1 ∧ p.1 < e := by
  unfold range
  rw [List.mem_filter, decide_eq_true_eq]
  constructor
  · rintro ⟨hp, hk, hlt⟩
    refine ⟨hp, hk, ?_⟩
    by_contra hcon
    cases hfind : m.find? fun q => e ≤ q.1 with
    | none => exact List.find?_eq_none.mp hfind p hp (by simpa using hcon)
    | some q =>
      have hpq : p.1 < q.1 := hlt q.1 (by rw [lowerBound, hfind]; rfl)
      obtain ⟨-, pre, post, rfl, hpre⟩ := List.find?_eq_some_iff_append.mp hfind
      rcases List.mem_append.mp hp with hp | hp
      · exact absurd (hpre p hp) (by simpa using hcon)
      · rcases List.mem_cons.mp hp with rfl | hp
        · exact lt_irrefl _ hpq
        · exact lt_asymm hpq (h.split.2 p hp)
  · rintro ⟨hp, hk, hlt⟩
    refine ⟨hp, hk, ?_⟩
    intro e' he'
    obtain ⟨q, hq, rfl⟩ := Option.map_eq_some_iff.mp he'
    have hle : e ≤ q.1 := by simpa using List.find?_some hq
    exact lt_of_lt_of_le hlt hle

section Search

/-- `std::find_if` from an iterator to the end. -/
def findIf (m : OrderedMap κ α) (p : κ × α → Bool) : Nat → Option κ → Option (Option κ)
  | _, none => some none
  | 0, some _ => none
  | fuel + 1, some k =>
    match m.get? k with
    | none => none
    | some v => if p (k, v) then some (some k) else findIf m p fuel (m.next k)

/-- `std::find_if` over reverse iterators.  A reverse iterator is given by its base, the iterator after the entry that
it points to. -/
def findIfReverse (m : OrderedMap κ α) (p : κ × α → Bool) : Nat → Option κ → Option (Option κ)
  | 0, _ => none
  | fuel + 1, base =>
    match m.prev base with
    | none => some base
    | some k =>
      match m.get? k with
      | none => none
      | some v => if p (k, v) then some base else findIfReverse m p fuel (some k)

variable {p : κ × α → Bool} {pre post : List (κ × α)} {fuel : Nat}

/-- The search ends at the first entry that satisfies the predicate. -/
theorem findIf_split (hm : Sorted (pre ++ post)) (hfuel : post.length < fuel) :
    ∃ run rest, post = run ++ rest ∧ (∀ e ∈ run, p e = false) ∧ (∀ e ∈ rest.head?, p e = true) ∧
      findIf (pre ++ post) p fuel (post.head?.map Prod.fst) = some (rest.head?.map Prod.fst) := by
  induction post generalizing pre fuel with
  | nil => exact ⟨[], [], rfl, by simp, by simp, by cases fuel <;> rfl⟩
  | cons e post ih =>
    obtain ⟨k, v⟩ := e
    obtain ⟨fuel, rfl⟩ : ∃ n, fuel = n + 1 := ⟨fuel - 1, by simp at hfuel; omega⟩
    have hget := get?_split hm
    simp only [List.head?_cons, Option.map_some, findIf, hget]
    by_cases hp : p (k, v) = true
    · exact ⟨[], (k, v) :: post, rfl, by simp, by simpa using hp, by rw [if_pos hp]; rfl⟩
    · have happ : pre ++ (k, v) :: post = (pre ++ [(k, v)]) ++ post := by simp
      have hnext := next_split hm
      rw [happ] at hm
      obtain ⟨run, rest, hpost, hrun, hrest, hfind⟩ := ih hm (by simp at hfuel; omega)
      refine ⟨(k, v) :: run, rest, by rw [hpost, List.cons_append], ?_, hrest, ?_⟩
      · intro e he
        rcases List.mem_cons.mp he with rfl | he
        · simpa using hp
        · exact hrun e he
      · rw [if_neg hp, hnext, happ]
        exact hfind

/-- The search goes back to the entry after the last one that satisfies the predicate. -/
theorem findIfReverse_split {k : κ} {v : α} (hm : Sorted (pre ++ (k, v) :: post)) (hfuel : pre.length < fuel) :
    ∃ rest run, pre = rest ++ run ∧ (∀ e ∈ run, p e = false) ∧ (∀ e ∈ rest.getLast?, p e = true) ∧
      findIfReverse (pre ++ (k, v) :: post) p fuel (some k) =
        some ((run ++ (k, v) :: post).head?.map Prod.fst) := by
  induction fuel generalizing pre k v post with
  | zero => omega
  | succ fuel ih =>
    have hprev := prev_split hm
    simp only [findIfReverse, hprev]
    rcases List.eq_nil_or_concat pre with rfl | ⟨pre', ⟨k', v'⟩, rfl⟩
    · exact ⟨[], [], rfl, by simp, by simp, rfl⟩
    · have happ : pre'.concat (k', v') ++ (k, v) :: post = pre' ++ (k', v') :: (k, v) :: post := by simp
      rw [happ] at hm ⊢
      have hget := get?_split hm
      simp only [List.concat_eq_append, List.getLast?_append, List.getLast?_singleton, Option.some_or, Option.map_some,
        hget]
      by_cases hp : p (k', v') = true
      · refine ⟨pre' ++ [(k', v')], [], by simp, by simp, by simpa using hp, ?_⟩
        rw [if_pos hp]
        rfl
      · obtain ⟨rest, run, hpre, hrun, hrest, hfind⟩ := ih hm (by simp at hfuel; omega)
        refine ⟨rest, run ++ [(k', v')], by rw [hpre, List.append_assoc], ?_, hrest, ?_⟩
        · intro e he
          rcases List.mem_append.mp he with he | he
          · exact hrun e he
          · rw [List.mem_singleton.mp he]
            simpa using hp
        · rw [if_neg hp, hfind]
          simp

end Search

end OrderedMap

end SweepDSEmu
