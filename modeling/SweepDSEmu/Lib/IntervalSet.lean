import Mathlib.Data.Set.Card
import Mathlib.Order.Interval.Finset.Nat
import Mathlib.Order.CompletePartialOrder

/-!
# Sets of numbers as lists of intervals

A finite set of numbers as the ascending list of its maximal right-open intervals; intervals that overlap or touch are
joined when one is added.  `IntervalSet.points` is the set that a list stands for, and the lemmas say what each
operation does to it.
-/

namespace SweepDSEmu

abbrev IntervalSet := List (Nat × Nat)

namespace IntervalSet

variable {s : IntervalSet}

def between (l u : Nat) : Set Nat := {x | l ≤ x ∧ x < u}

def points (s : IntervalSet) : Set Nat := {x | ∃ p ∈ s, p.1 ≤ x ∧ x < p.2}

def add (s : IntervalSet) (l u : Nat) : IntervalSet :=
  if u ≤ l then s else
  let touching := s.filter fun p => l ≤ p.2 ∧ p.1 ≤ u
  (s.filter fun p => p.2 < l) ++
    (touching.foldl (fun a p => min a p.1) l, touching.foldl (fun a p => max a p.2) u) ::
    s.filter fun p => l ≤ p.2 ∧ u < p.1

def subtract (s : IntervalSet) (l u : Nat) : IntervalSet :=
  if u ≤ l then s else
  s.flatMap fun p => [(p.1, min p.2 l), (max p.1 u, p.2)].filter fun q => q.1 < q.2

def union (s t : IntervalSet) : IntervalSet := t.foldl (fun s p => s.add p.1 p.2) s

def difference (s t : IntervalSet) : IntervalSet := t.foldl (fun s p => s.subtract p.1 p.2) s

def intersect (s : IntervalSet) (l u : Nat) : IntervalSet :=
  (s.map fun p => (max p.1 l, min p.2 u)).filter fun q => q.1 < q.2

def contains (s : IntervalSet) (l u : Nat) : Bool := u ≤ l || s.any fun p => p.1 ≤ l ∧ u ≤ p.2

def intersects (s : IntervalSet) (l u : Nat) : Bool := s.any fun p => max p.1 l < min p.2 u

@[simp] theorem points_nil : points [] = ∅ := by
  ext x
  simp [points]

@[simp] theorem mem_between {l u x : Nat} : x ∈ between l u ↔ l ≤ x ∧ x < u := Iff.rfl

theorem mem_points {x : Nat} : x ∈ s.points ↔ ∃ p ∈ s, p.1 ≤ x ∧ x < p.2 := Iff.rfl

theorem points_singleton (l u : Nat) : points [(l, u)] = between l u := by
  ext x
  simp [points]

theorem points_cons (p : Nat × Nat) (s : IntervalSet) : points (p :: s) = between p.1 p.2 ∪ points s := by
  ext x
  simp [points]

private theorem foldl_min_spec (t : List (Nat × Nat)) (l : Nat) :
    (t.foldl (fun a p => min a p.1) l = l ∨ ∃ p ∈ t, t.foldl (fun a p => min a p.1) l = p.1) ∧
      t.foldl (fun a p => min a p.1) l ≤ l ∧ ∀ p ∈ t, t.foldl (fun a p => min a p.1) l ≤ p.1 := by
  induction t generalizing l with
  | nil => simp
  | cons q t ih =>
    obtain ⟨h1, h2, h3⟩ := ih (min l q.1)
    simp only [List.foldl_cons]
    refine ⟨?_, by omega, ?_⟩
    · rcases h1 with h1 | ⟨p, hp, h1⟩
      · by_cases hlq : l ≤ q.1
        · exact Or.inl (by omega)
        · exact Or.inr ⟨q, List.mem_cons_self, by omega⟩
      · exact Or.inr ⟨p, List.mem_cons_of_mem _ hp, h1⟩
    · intro p hp
      rcases List.mem_cons.mp hp with rfl | hp
      · omega
      · exact h3 p hp

private theorem foldl_max_spec (t : List (Nat × Nat)) (u : Nat) :
    (t.foldl (fun a p => max a p.2) u = u ∨ ∃ p ∈ t, t.foldl (fun a p => max a p.2) u = p.2) ∧
      u ≤ t.foldl (fun a p => max a p.2) u ∧ ∀ p ∈ t, p.2 ≤ t.foldl (fun a p => max a p.2) u := by
  induction t generalizing u with
  | nil => simp
  | cons q t ih =>
    obtain ⟨h1, h2, h3⟩ := ih (max u q.2)
    simp only [List.foldl_cons]
    refine ⟨?_, by omega, ?_⟩
    · rcases h1 with h1 | ⟨p, hp, h1⟩
      · by_cases hlq : q.2 ≤ u
        · exact Or.inl (by omega)
        · exact Or.inr ⟨q, List.mem_cons_self, by omega⟩
      · exact Or.inr ⟨p, List.mem_cons_of_mem _ hp, h1⟩
    · intro p hp
      rcases List.mem_cons.mp hp with rfl | hp
      · omega
      · exact h3 p hp

theorem points_add (s : IntervalSet) (l u : Nat) : (s.add l u).points = s.points ∪ between l u := by
  unfold add
  by_cases hlu : u ≤ l
  · rw [if_pos hlu]
    ext x
    simp only [Set.mem_union, mem_between]
    constructor
    · exact Or.inl
    · rintro (h | h)
      · exact h
      · omega
  rw [if_neg hlu]
  ext x
  obtain ⟨lo1, lo2, lo3⟩ := foldl_min_spec (s.filter fun p => l ≤ p.2 ∧ p.1 ≤ u) l
  obtain ⟨hi1, hi2, hi3⟩ := foldl_max_spec (s.filter fun p => l ≤ p.2 ∧ p.1 ≤ u) u
  simp only [mem_points, List.mem_append, List.mem_cons, Set.mem_union, mem_between]
  constructor
  · rintro ⟨p, hp | rfl | hp, hx⟩
    · exact Or.inl ⟨p, (List.mem_filter.mp hp).1, hx⟩
    · -- a point of the joined interval is in one of its parts
      by_cases hxl : x < l
      · rcases lo1 with h | ⟨p, hp, h⟩
        · simp only at hx; omega
        · have hp' := List.mem_filter.mp hp
          simp only [decide_eq_true_eq] at hp' hx
          exact Or.inl ⟨p, hp'.1, by omega, by omega⟩
      · by_cases hxu : x < u
        · exact Or.inr ⟨by omega, hxu⟩
        · rcases hi1 with h | ⟨p, hp, h⟩
          · simp only at hx; omega
          · have hp' := List.mem_filter.mp hp
            simp only [decide_eq_true_eq] at hp' hx
            exact Or.inl ⟨p, hp'.1, by omega, by omega⟩
    · exact Or.inl ⟨p, (List.mem_filter.mp hp).1, hx⟩
  · rintro (⟨p, hp, hx⟩ | hx)
    · by_cases h1 : p.2 < l
      · exact ⟨p, Or.inl (List.mem_filter.mpr ⟨hp, by simpa using h1⟩), hx⟩
      · by_cases h2 : u < p.1
        · exact ⟨p, Or.inr (Or.inr (List.mem_filter.mpr ⟨hp, by simp; omega⟩)), hx⟩
        · have hmem : p ∈ s.filter fun p => l ≤ p.2 ∧ p.1 ≤ u := List.mem_filter.mpr ⟨hp, by simp; omega⟩
          have h3 := lo3 p hmem
          have h4 := hi3 p hmem
          exact ⟨_, Or.inr (Or.inl rfl), by simp only; omega, by simp only; omega⟩
    · exact ⟨_, Or.inr (Or.inl rfl), by simp only; omega, by simp only; omega⟩

theorem add_nonempty (hs : ∀ p ∈ s, p.1 < p.2) (l u : Nat) : ∀ p ∈ s.add l u, p.1 < p.2 := by
  unfold add
  by_cases hlu : u ≤ l
  · rw [if_pos hlu]
    exact hs
  rw [if_neg hlu]
  obtain ⟨-, lo, -⟩ := foldl_min_spec (s.filter fun p => l ≤ p.2 ∧ p.1 ≤ u) l
  obtain ⟨-, hi, -⟩ := foldl_max_spec (s.filter fun p => l ≤ p.2 ∧ p.1 ≤ u) u
  intro p hp
  rcases List.mem_append.mp hp with hp | hp
  · exact hs p (List.mem_filter.mp hp).1
  · rcases List.mem_cons.mp hp with rfl | hp
    · simp only
      omega
    · exact hs p (List.mem_filter.mp hp).1

theorem points_subtract (s : IntervalSet) (l u : Nat) : (s.subtract l u).points = s.points \ between l u := by
  unfold subtract
  by_cases hlu : u ≤ l
  · rw [if_pos hlu]
    ext x
    simp only [Set.mem_sdiff, mem_between]
    constructor
    · intro h
      exact ⟨h, by omega⟩
    · exact fun h => h.1
  rw [if_neg hlu]
  ext x
  simp only [mem_points, List.mem_flatMap, List.mem_filter, List.mem_cons, List.not_mem_nil, or_false, Set.mem_sdiff,
    mem_between, decide_eq_true_eq]
  constructor
  · rintro ⟨q, ⟨p, hp, rfl | rfl, hq⟩, hx⟩
    · simp only at hx hq
      exact ⟨⟨p, hp, by omega, by omega⟩, by omega⟩
    · simp only at hx hq
      exact ⟨⟨p, hp, by omega, by omega⟩, by omega⟩
  · rintro ⟨⟨p, hp, hx⟩, hn⟩
    by_cases hxl : x < l
    · exact ⟨(p.1, min p.2 l), ⟨p, hp, Or.inl rfl, by simp only; omega⟩, by simp only; omega⟩
    · exact ⟨(max p.1 u, p.2), ⟨p, hp, Or.inr rfl, by simp only; omega⟩, by simp only; omega⟩

theorem points_intersect (s : IntervalSet) (l u : Nat) : (s.intersect l u).points = s.points ∩ between l u := by
  unfold intersect
  ext x
  simp only [mem_points, List.mem_filter, List.mem_map, decide_eq_true_eq, Set.mem_inter_iff, mem_between]
  constructor
  · rintro ⟨q, ⟨⟨p, hp, rfl⟩, hq⟩, hx⟩
    exact ⟨⟨p, hp, by omega, by omega⟩, by omega⟩
  · rintro ⟨⟨p, hp, hx⟩, hxlu⟩
    exact ⟨_, ⟨⟨p, hp, rfl⟩, by dsimp only; omega⟩, by dsimp only; omega⟩

theorem points_union (s t : IntervalSet) : (s.union t).points = s.points ∪ t.points := by
  unfold union
  induction t generalizing s with
  | nil => simp
  | cons p t ih => rw [List.foldl_cons, ih, points_add, points_cons, Set.union_assoc]

theorem points_difference (s t : IntervalSet) : (s.difference t).points = s.points \ t.points := by
  unfold difference
  induction t generalizing s with
  | nil =>
    ext x
    simp
  | cons p t ih =>
    rw [List.foldl_cons, ih, points_subtract, points_cons]
    ext x
    simp only [Set.mem_sdiff, Set.mem_union, not_or, and_assoc]

theorem subset_of_contains {l u : Nat} (h : s.contains l u = true) : between l u ⊆ s.points := by
  unfold contains at h
  simp only [Bool.or_eq_true, decide_eq_true_eq, List.any_eq_true] at h
  intro x hx
  have hx := mem_between.mp hx
  rcases h with h | ⟨p, hp, h1, h2⟩
  · omega
  · exact ⟨p, hp, by omega, by omega⟩

theorem contained_subtract {a b l u : Nat} (hab : a < b) (hs : ∃ p ∈ s, p.1 ≤ a ∧ b ≤ p.2)
    (hout : ∀ x ∈ between a b, x ∉ between l u) : ∃ p ∈ s.subtract l u, p.1 ≤ a ∧ b ≤ p.2 := by
  obtain ⟨p, hp, hpa, hpb⟩ := hs
  unfold subtract
  by_cases hlu : u ≤ l
  · rw [if_pos hlu]
    exact ⟨p, hp, hpa, hpb⟩
  · rw [if_neg hlu]
    have hside : b ≤ l ∨ u ≤ a := by
      by_contra hmeet
      refine hout (max a l) ⟨le_max_left _ _, ?_⟩ ⟨le_max_right _ _, ?_⟩ <;> omega
    rcases hside with hside | hside
    · refine ⟨(p.1, min p.2 l), List.mem_flatMap.mpr ⟨p, hp, ?_⟩, hpa, le_min hpb hside⟩
      simp only [List.mem_filter, List.mem_cons, true_or, decide_eq_true_eq, true_and]
      omega
    · refine ⟨(max p.1 u, p.2), List.mem_flatMap.mpr ⟨p, hp, ?_⟩, max_le hpa hside, hpb⟩
      simp only [List.mem_filter, List.mem_cons, or_true, true_or, decide_eq_true_eq, true_and]
      omega

theorem contained_difference {s t : IntervalSet} {a b : Nat} (hab : a < b) (hs : ∃ p ∈ s, p.1 ≤ a ∧ b ≤ p.2)
    (hout : ∀ x ∈ between a b, x ∉ t.points) : ∃ p ∈ s.difference t, p.1 ≤ a ∧ b ≤ p.2 := by
  induction t generalizing s with
  | nil => exact hs
  | cons q t ih =>
    refine ih (contained_subtract hab hs ?_) ?_
    · exact fun x hx hq => hout x hx (by rw [points_cons]; exact Or.inl hq)
    · exact fun x hx hq => hout x hx (by rw [points_cons]; exact Or.inr hq)

theorem nonempty_subtract (hs : ∀ p ∈ s, p.1 < p.2) (l u : Nat) :
    ∀ p ∈ s.subtract l u, p.1 < p.2 := by
  intro p hp
  unfold subtract at hp
  split_ifs at hp
  · exact hs p hp
  · obtain ⟨q, -, hq⟩ := List.mem_flatMap.mp hp
    exact of_decide_eq_true (List.mem_filter.mp hq).2

theorem nonempty_difference (hs : ∀ p ∈ s, p.1 < p.2) (t : IntervalSet) :
    ∀ p ∈ s.difference t, p.1 < p.2 := by
  induction t generalizing s with
  | nil => exact hs
  | cons q t ih => exact ih (nonempty_subtract hs q.1 q.2)

theorem intersects_eq_false {l u : Nat} (h : ∀ x ∈ between l u, x ∉ s.points) :
    s.intersects l u = false := by
  unfold intersects
  rw [List.any_eq_false]
  intro p hp hlt
  simp only [decide_eq_true_eq] at hlt
  exact h (max p.1 l) ⟨by omega, by omega⟩ ⟨p, hp, by omega, by omega⟩

theorem intersects_eq_false_iff {l u : Nat} :
    s.intersects l u = false ↔ ∀ x ∈ between l u, x ∉ s.points := by
  refine ⟨?_, intersects_eq_false⟩
  rintro h x ⟨hl, hu⟩ ⟨p, hp, hx, hx'⟩
  unfold intersects at h
  rw [List.any_eq_false] at h
  apply h p hp
  simp only [decide_eq_true_eq]
  omega

section Ends

variable {P : Nat → Prop} {t : IntervalSet} {l u : Nat}

/-- The ends of the intervals after `add` are ends from before, or those of the new interval. -/
theorem ends_add (hs : ∀ p ∈ s, P p.1 ∧ P p.2) (hl : P l) (hu : P u) : ∀ p ∈ s.add l u, P p.1 ∧ P p.2 := by
  unfold add
  by_cases hlu : u ≤ l
  · rw [if_pos hlu]
    exact hs
  rw [if_neg hlu]
  obtain ⟨lo, -, -⟩ := foldl_min_spec (s.filter fun p => l ≤ p.2 ∧ p.1 ≤ u) l
  obtain ⟨hi, -, -⟩ := foldl_max_spec (s.filter fun p => l ≤ p.2 ∧ p.1 ≤ u) u
  intro p hp
  rcases List.mem_append.mp hp with hp | hp
  · exact hs p (List.mem_filter.mp hp).1
  · rcases List.mem_cons.mp hp with rfl | hp
    · constructor
      · rcases lo with h | ⟨q, hq, h⟩ <;> simp only [h]
        · exact hl
        · exact (hs q (List.mem_filter.mp hq).1).1
      · rcases hi with h | ⟨q, hq, h⟩ <;> simp only [h]
        · exact hu
        · exact (hs q (List.mem_filter.mp hq).1).2
    · exact hs p (List.mem_filter.mp hp).1

end Ends

/-- The intervals are in ascending order, not empty, and there is a gap between any two of them. -/
structure Normal (s : IntervalSet) : Prop where
  gaps : s.Pairwise fun p q => p.2 < q.1
  nonempty : ∀ p ∈ s, p.1 < p.2

def total (s : IntervalSet) : Nat := (s.map fun p => p.2 - p.1).sum

theorem normal_nil : Normal [] := ⟨List.Pairwise.nil, fun _ hp => absurd hp List.not_mem_nil⟩

private theorem Normal.apart (h : s.Normal) {p q : Nat × Nat} (hp : p ∈ s) (hq : q ∈ s) :
    p = q ∨ p.2 < q.1 ∨ q.2 < p.1 := by
  induction s with
  | nil => exact absurd hp List.not_mem_nil
  | cons a s ih =>
    obtain ⟨hgaps, hne⟩ := h
    rw [List.pairwise_cons] at hgaps
    rcases List.mem_cons.mp hp with rfl | hp'
    · rcases List.mem_cons.mp hq with rfl | hq'
      · exact Or.inl rfl
      · exact Or.inr (Or.inl (hgaps.1 q hq'))
    · rcases List.mem_cons.mp hq with rfl | hq'
      · exact Or.inr (Or.inr (hgaps.1 p hp'))
      · exact ih ⟨hgaps.2, fun p hp => hne p (List.mem_cons_of_mem _ hp)⟩ hp' hq'

theorem Normal.add (h : s.Normal) (l u : Nat) : (s.add l u).Normal := by
  refine ⟨?_, add_nonempty h.nonempty l u⟩
  unfold IntervalSet.add
  by_cases hlu : u ≤ l
  · rw [if_pos hlu]
    exact h.gaps
  rw [if_neg hlu]
  obtain ⟨lo1, lo2, -⟩ := foldl_min_spec (s.filter fun p => l ≤ p.2 ∧ p.1 ≤ u) l
  obtain ⟨hi1, hi2, -⟩ := foldl_max_spec (s.filter fun p => l ≤ p.2 ∧ p.1 ≤ u) u
  have hleft : ∀ p ∈ s.filter fun p => p.2 < l, p ∈ s ∧ p.2 < l := by
    intro p hp
    simpa using List.mem_filter.mp hp
  have hright : ∀ p ∈ s.filter fun p => l ≤ p.2 ∧ u < p.1, p ∈ s ∧ l ≤ p.2 ∧ u < p.1 := by
    intro p hp
    simpa using List.mem_filter.mp hp
  have htouch : ∀ p ∈ s.filter fun p => l ≤ p.2 ∧ p.1 ≤ u, p ∈ s ∧ l ≤ p.2 ∧ p.1 ≤ u := by
    intro p hp
    simpa using List.mem_filter.mp hp
  refine List.pairwise_append.mpr ⟨h.gaps.filter _, List.pairwise_cons.mpr ⟨?_, h.gaps.filter _⟩, ?_⟩
  · -- what is right of the joined interval is right of all its parts
    intro q hq
    obtain ⟨hqs, -, hqu⟩ := hright q hq
    show List.foldl _ u _ < q.1
    rcases hi1 with hi | ⟨p, hp, hi⟩
    · omega
    · obtain ⟨hps, hpl, hpu⟩ := htouch p hp
      have hpne := h.nonempty p hps
      have hqne := h.nonempty q hqs
      rcases h.apart hps hqs with rfl | hpq | hqp
      · omega
      · omega
      · omega
  · intro p hp q hq
    obtain ⟨hps, hpl⟩ := hleft p hp
    have hpne := h.nonempty p hps
    rcases List.mem_cons.mp hq with rfl | hq
    · show p.2 < List.foldl _ l _
      rcases lo1 with lo | ⟨q, hq, lo⟩
      · omega
      · obtain ⟨hqs, hql, hqu⟩ := htouch q hq
        have hqne := h.nonempty q hqs
        rcases h.apart hps hqs with rfl | hpq | hqp
        · omega
        · omega
        · omega
    · obtain ⟨-, -, hqu⟩ := hright q hq
      omega

theorem Normal.subtract (h : s.Normal) (l u : Nat) : (s.subtract l u).Normal := by
  unfold IntervalSet.subtract
  by_cases hlu : u ≤ l
  · rw [if_pos hlu]
    exact h
  rw [if_neg hlu]
  have hmem : ∀ p q : Nat × Nat, q ∈ [(p.1, min p.2 l), (max p.1 u, p.2)].filter (fun q => q.1 < q.2) →
      p.1 ≤ q.1 ∧ q.2 ≤ p.2 ∧ q.1 < q.2 := by
    intro p q hq
    simp only [List.mem_filter, List.mem_cons, List.not_mem_nil, or_false, decide_eq_true_eq] at hq
    obtain ⟨rfl | rfl, hlt⟩ := hq
    · exact ⟨le_rfl, Nat.min_le_left _ _, hlt⟩
    · exact ⟨Nat.le_max_left _ _, le_rfl, hlt⟩
  refine ⟨List.pairwise_flatMap.mpr ⟨?_, ?_⟩, ?_⟩
  · intro p hp
    apply List.Pairwise.filter
    simp only [List.pairwise_cons, List.mem_singleton, List.not_mem_nil, forall_eq, false_implies, implies_true,
      List.Pairwise.nil, and_true]
    omega
  · refine h.gaps.imp ?_
    intro p q hpq a ha b hb
    obtain ⟨-, ha, -⟩ := hmem p a ha
    obtain ⟨hb, -, -⟩ := hmem q b hb
    omega
  · intro q hq
    obtain ⟨p, -, hq⟩ := List.mem_flatMap.mp hq
    exact (hmem p q hq).2.2

theorem Normal.difference (h : s.Normal) (t : IntervalSet) : (s.difference t).Normal := by
  induction t generalizing s with
  | nil => exact h
  | cons p t ih => exact ih (h.subtract p.1 p.2)

theorem Normal.intersect (h : s.Normal) (l u : Nat) : (s.intersect l u).Normal := by
  refine ⟨?_, fun q hq => of_decide_eq_true (List.mem_filter.mp hq).2⟩
  refine List.Pairwise.filter _ (List.pairwise_map.mpr (h.gaps.imp ?_))
  intro p q hpq
  omega

theorem Normal.head_le {p : Nat × Nat} (h : Normal (p :: s)) {x : Nat} (hx : x ∈ points (p :: s)) :
    p.1 ≤ x := by
  obtain ⟨q, hq, hqx, -⟩ := hx
  have hp := h.nonempty p List.mem_cons_self
  rcases List.mem_cons.mp hq with rfl | hq
  · exact hqx
  · have := (List.pairwise_cons.mp h.gaps).1 q hq
    omega

theorem between_eq_Ico (l u : Nat) : between l u = Set.Ico l u := rfl

theorem ncard_between (l u : Nat) : (between l u).ncard = u - l := by
  rw [between_eq_Ico, ← Finset.coe_Ico, Set.ncard_coe_finset, Nat.card_Ico]

theorem finite_points (s : IntervalSet) : s.points.Finite := by
  induction s with
  | nil =>
    rw [points_nil]
    exact Set.finite_empty
  | cons p s ih =>
    rw [points_cons, between_eq_Ico]
    exact (Set.finite_Ico _ _).union ih

/-- The intervals of a normal form are disjoint, so their lengths add up to the number of points. -/
theorem Normal.total_eq (h : s.Normal) : s.total = s.points.ncard := by
  induction s with
  | nil => simp [total]
  | cons p s ih =>
    obtain ⟨hgaps, hne⟩ := h
    rw [List.pairwise_cons] at hgaps
    have hdisjoint : Disjoint (between p.1 p.2) (points s) := by
      refine Set.disjoint_left.mpr ?_
      rintro x ⟨-, hx⟩ ⟨q, hq, hx', -⟩
      have := hgaps.1 q hq
      omega
    have hs := ih ⟨hgaps.2, fun q hq => hne q (List.mem_cons_of_mem _ hq)⟩
    rw [points_cons, Set.ncard_union_eq hdisjoint (Set.finite_Ico _ _) (finite_points s), ncard_between, ← hs]
    simp [total]

end IntervalSet

end SweepDSEmu
