import Mathlib.Order.MinMax
import Mathlib.Tactic.Common

/-!
# Maps with intervals of numbers as keys

A partial function on the numbers as the ascending list of its segments, right-open intervals with one value each.
Segments that touch and have the same value are joined.  All changes are cases of `update`, which replaces the values
of an interval by what a function says; `get?_update` describes it point by point.
-/

namespace SweepDSEmu

/-- A right-open interval with a value. -/
structure Segment (α : Type*) where
  lower : Nat
  upper : Nat
  value : α
  deriving DecidableEq

namespace Segment

variable {α : Type*}

/-- The segments follow one another from `b` on, and none is empty. -/
def Above (b : Nat) : List (Segment α) → Prop
  | [] => True
  | s :: rest => b ≤ s.lower ∧ s.lower < s.upper ∧ Above s.upper rest

def lookup : List (Segment α) → Nat → Option α
  | [], _ => none
  | s :: rest, p => if s.lower ≤ p ∧ p < s.upper then some s.value else lookup rest p

/-- The segments of an interval with the same value everywhere, or none. -/
def piece (l u : Nat) : Option α → List (Segment α)
  | some v => if l < u then [⟨l, u, v⟩] else []
  | none => []

/-- Replaces the values of an interval.  A segment that the interval cuts is split. -/
def replace (f : Option α → Option α) (u : Nat) : Nat → List (Segment α) → List (Segment α)
  | l, [] => piece l u (f none)
  | l, s :: rest =>
    if u ≤ s.lower then piece l u (f none) ++ s :: rest
    else if s.upper ≤ l then s :: replace f u l rest
    else (if l < s.lower then piece l s.lower (f none) else piece s.lower l (some s.value)) ++
      (piece (max l s.lower) (min u s.upper) (f (some s.value)) ++
        (piece u s.upper (some s.value) ++ replace f u s.upper rest))

example : lookup [⟨1, 3, true⟩] 2 = some true := by simp [lookup]

example : replace (fun _ => some false) 2 0 [⟨1, 3, true⟩] = [⟨0, 1, false⟩, ⟨1, 2, false⟩, ⟨2, 3, true⟩] := by
  simp [replace, piece]

def joinCons [DecidableEq α] (s : Segment α) : List (Segment α) → List (Segment α)
  | [] => [s]
  | t :: rest => if s.upper = t.lower ∧ s.value = t.value then ⟨s.lower, t.upper, s.value⟩ :: rest else s :: t :: rest

def join [DecidableEq α] (segments : List (Segment α)) : List (Segment α) := segments.foldr joinCons []

section Order

variable {rest segments : List (Segment α)}

theorem Above.mono {b c : Nat} (h : b ≤ c) (hs : Above c segments) : Above b segments := by
  cases segments with
  | nil => trivial
  | cons s rest => exact ⟨h.trans hs.1, hs.2⟩

theorem lookup_lt {b p : Nat} (h : Above b segments) (hp : p < b) : lookup segments p = none := by
  induction segments generalizing b with
  | nil => rfl
  | cons s rest ih =>
    obtain ⟨h1, h2, h3⟩ := h
    rw [lookup, if_neg (by omega)]
    exact ih h3 (by omega)

theorem mem_lower {b : Nat} (h : Above b segments) {s : Segment α}
    (hs : s ∈ segments) : b ≤ s.lower ∧ s.lower < s.upper := by
  induction segments generalizing b with
  | nil => cases hs
  | cons t rest ih =>
    obtain ⟨h1, h2, h3⟩ := h
    rcases List.mem_cons.mp hs with rfl | hs
    · exact ⟨h1, h2⟩
    · have h4 := ih h3 hs
      exact ⟨by omega, h4.2⟩

theorem lookup_eq_some {b p : Nat} {v : α} (h : Above b segments) :
    lookup segments p = some v ↔ ∃ s ∈ segments, s.lower ≤ p ∧ p < s.upper ∧ s.value = v := by
  induction segments generalizing b with
  | nil => simp [lookup]
  | cons t rest ih =>
    obtain ⟨h1, h2, h3⟩ := h
    simp only [lookup, List.mem_cons, exists_eq_or_imp]
    split_ifs with ht
    · constructor
      · intro hv
        exact Or.inl ⟨ht.1, ht.2, Option.some.inj hv⟩
      · rintro (hv | ⟨s, hs, hp, -, -⟩)
        · rw [hv.2.2]
        · have h4 := (mem_lower h3 hs).1
          omega
    · rw [ih h3]
      constructor
      · exact Or.inr
      · rintro (hv | hv)
        · exact absurd ⟨hv.1, hv.2.1⟩ ht
        · exact hv

theorem above_piece {b l u : Nat} (hl : b ≤ l) (hu : b ≤ u) (o : Option α)
    (h : Above u rest) : Above b (piece l u o ++ rest) := by
  cases o with
  | none => exact h.mono hu
  | some v =>
    unfold piece
    split_ifs with hlu
    · exact ⟨hl, hlu, h⟩
    · exact h.mono hu

theorem lookup_piece (l u p : Nat) (o : Option α) (h : Above u rest) :
    lookup (piece l u o ++ rest) p = if l ≤ p ∧ p < u then o else lookup rest p := by
  cases o with
  | none =>
    split_ifs with hp
    · exact lookup_lt h hp.2
    · rfl
  | some v =>
    unfold piece
    split_ifs with hlu hp hp
    · rw [List.singleton_append, lookup, if_pos hp]
    · rw [List.singleton_append, lookup, if_neg hp]
    · omega
    · rfl

/-- The replacement keeps the order.  Past the end of the interval it changes nothing. -/
theorem above_replace (f : Option α → Option α) {b l u : Nat} (hlu : l ≤ u ∨ u ≤ b) (hb : b ≤ l) (h : Above b segments) : Above b (replace f u l segments) := by
  induction segments generalizing b l with
  | nil =>
    unfold replace
    cases f none with
    | none => trivial
    | some v =>
      unfold piece
      split_ifs with hlt
      · exact ⟨hb, hlt, trivial⟩
      · trivial
  | cons s rest ih =>
    obtain ⟨h1, h2, h3⟩ := h
    unfold replace
    split_ifs with hu hl hls
    · by_cases hlt : l ≤ u
      · exact above_piece hb (hb.trans hlt) _ ⟨hu, h2, h3⟩
      · have hempty : piece l u (f none) = [] := by
          cases f none with
          | none => rfl
          | some v => exact if_neg (by omega)
        rw [hempty]
        exact ⟨h1, h2, h3⟩
    · exact ⟨h1, h2, ih (by omega) hl h3⟩
    · have hrest := ih (l := s.upper) (by omega) le_rfl h3
      exact above_piece hb h1 _ (above_piece (by omega) (by omega) _ (above_piece (by omega) (by omega) _ hrest))
    · have hrest := ih (l := s.upper) (by omega) le_rfl h3
      exact above_piece h1 hb _ (above_piece (by omega) (by omega) _ (above_piece (by omega) (by omega) _ hrest))

theorem lookup_replace (f : Option α → Option α) {b l u : Nat} (hlu : l ≤ u ∨ u ≤ b) (hb : b ≤ l) (h : Above b segments) (p : Nat) :
    lookup (replace f u l segments) p = if l ≤ p ∧ p < u then f (lookup segments p) else lookup segments p := by
  induction segments generalizing b l with
  | nil =>
    have hnil : Above u ([] : List (Segment α)) := trivial
    rw [replace, ← List.append_nil (piece l u (f none)), lookup_piece l u p _ hnil]
    rfl
  | cons s rest ih =>
    obtain ⟨h1, h2, h3⟩ := h
    have hcons : lookup (s :: rest) p = if s.lower ≤ p ∧ p < s.upper then some s.value else lookup rest p := rfl
    rw [replace]
    by_cases hu : u ≤ s.lower
    · have habove : Above u (s :: rest) := ⟨hu, h2, h3⟩
      rw [if_pos hu, lookup_piece l u p _ habove]
      split_ifs with hp
      · rw [lookup_lt habove hp.2]
      · rfl
    rw [if_neg hu]
    by_cases hl : s.upper ≤ l
    · rw [if_pos hl, lookup, hcons, ih (by omega) hl h3]
      split_ifs
      all_goals first | rfl | omega
    rw [if_neg hl]
    -- the segment is cut: the point is before it, in one of its parts, or after it
    have hrest : Above s.upper (replace f u s.upper rest) := above_replace f (by omega) le_rfl h3
    have hright := above_piece (b := min u s.upper) (l := u) (by omega) (by omega) (some s.value) hrest
    have hmid := above_piece (b := max l s.lower) (l := max l s.lower) le_rfl (by omega) (f (some s.value)) hright
    have hbelow : p < s.upper → lookup rest p = none := lookup_lt h3
    have htail := ih (l := s.upper) (by omega) le_rfl h3
    by_cases hls : l < s.lower
    · rw [if_pos hls, lookup_piece _ _ _ _ (hmid.mono (by omega)), lookup_piece _ _ _ _ hright,
        lookup_piece _ _ _ _ hrest, htail, hcons]
      split_ifs
      all_goals first | rfl | omega | rw [hbelow (by omega)]
    · rw [if_neg hls, lookup_piece _ _ _ _ (hmid.mono (by omega)), lookup_piece _ _ _ _ hright,
        lookup_piece _ _ _ _ hrest, htail, hcons]
      split_ifs
      all_goals first | rfl | omega

theorem above_joinCons [DecidableEq α] {b : Nat} {s : Segment α} (h : Above b (s :: rest)) :
    Above b (joinCons s rest) := by
  cases rest with
  | nil => exact h
  | cons t rest =>
    obtain ⟨h1, h2, h3, h4, h5⟩ := h
    rw [joinCons]
    split_ifs with ht
    · exact ⟨h1, by simp only; omega, h5⟩
    · exact ⟨h1, h2, h3, h4, h5⟩

theorem lookup_joinCons [DecidableEq α] {b : Nat} {s : Segment α} (h : Above b (s :: rest))
    (p : Nat) : lookup (joinCons s rest) p = lookup (s :: rest) p := by
  cases rest with
  | nil => rfl
  | cons t rest =>
    obtain ⟨h1, h2, h3, h4, h5⟩ := h
    rw [joinCons]
    by_cases ht : s.upper = t.lower ∧ s.value = t.value
    · rw [if_pos ht]
      simp only [lookup, ← ht.2]
      split_ifs
      all_goals first | rfl | omega
    · rw [if_neg ht]

theorem join_spec [DecidableEq α] {b : Nat} (h : Above b segments) :
    Above b (join segments) ∧ ∀ p, lookup (join segments) p = lookup segments p := by
  induction segments generalizing b with
  | nil => exact ⟨h, fun _ => rfl⟩
  | cons s rest ih =>
    obtain ⟨h1, h2, h3⟩ := h
    obtain ⟨habove, hlookup⟩ := ih h3
    have hcons : Above b (s :: join rest) := ⟨h1, h2, habove⟩
    refine ⟨above_joinCons hcons, ?_⟩
    intro p
    show lookup (joinCons s (join rest)) p = lookup (s :: rest) p
    rw [lookup_joinCons hcons, lookup, lookup, hlookup]

end Order

end Segment

structure IntervalMap (α : Type*) where
  segments : List (Segment α)
  ordered : Segment.Above 0 segments

namespace IntervalMap

variable {α : Type*}

def empty : IntervalMap α := ⟨[], trivial⟩

def get? (m : IntervalMap α) (p : Nat) : Option α := Segment.lookup m.segments p

def range (m : IntervalMap α) (l u : Nat) : List (Segment α) := m.segments.filter fun s => max s.lower l < min s.upper u

variable [DecidableEq α]

def update (m : IntervalMap α) (l u : Nat) (f : Option α → Option α) : IntervalMap α :=
  if h : l ≤ u then
    ⟨Segment.join (Segment.replace f u l m.segments),
      (Segment.join_spec (Segment.above_replace f (Or.inl h) l.zero_le m.ordered)).1⟩
  else m

def set (m : IntervalMap α) (l u : Nat) (v : α) : IntervalMap α := m.update l u fun _ => some v

def erase (m : IntervalMap α) (l u : Nat) : IntervalMap α := m.update l u fun _ => none

/-- Adds to the numbers of an interval; what has none counts as zero, and zeros are dropped. -/
def add (m : IntervalMap Int) (l u : Nat) (d : Int) : IntervalMap Int :=
  m.update l u fun o => if o.getD 0 + d = 0 then none else some (o.getD 0 + d)

variable {m : IntervalMap α}

omit [DecidableEq α] in
theorem get?_eq_some {p : Nat} {v : α} :
    m.get? p = some v ↔ ∃ s ∈ m.segments, s.lower ≤ p ∧ p < s.upper ∧ s.value = v := Segment.lookup_eq_some m.ordered

omit [DecidableEq α] in
theorem lower_lt_upper {s : Segment α} (hs : s ∈ m.segments) : s.lower < s.upper :=
  (Segment.mem_lower m.ordered hs).2

omit [DecidableEq α] in
theorem get?_of_mem {s : Segment α} (hs : s ∈ m.segments) {p : Nat} (hl : s.lower ≤ p)
    (hu : p < s.upper) : m.get? p = some s.value := get?_eq_some.mpr ⟨s, hs, hl, hu, rfl⟩

omit [DecidableEq α] in
theorem mem_range {s : Segment α} {l u : Nat} :
    s ∈ m.range l u ↔ s ∈ m.segments ∧ max s.lower l < min s.upper u := by
  simp [range]

theorem get?_update (m : IntervalMap α) (l u : Nat) (f : Option α → Option α) (p : Nat) :
    (m.update l u f).get? p = if l ≤ p ∧ p < u then f (m.get? p) else m.get? p := by
  unfold update
  split_ifs with h hp hp
  · have habove := Segment.above_replace f (Or.inl h) l.zero_le m.ordered
    show Segment.lookup (Segment.join _) p = _
    rw [(Segment.join_spec habove).2, Segment.lookup_replace f (Or.inl h) l.zero_le m.ordered, if_pos hp]
    rfl
  · have habove := Segment.above_replace f (Or.inl h) l.zero_le m.ordered
    show Segment.lookup (Segment.join _) p = _
    rw [(Segment.join_spec habove).2, Segment.lookup_replace f (Or.inl h) l.zero_le m.ordered, if_neg hp]
    rfl
  · omega
  · rfl

theorem get?_set (m : IntervalMap α) (l u p : Nat) (v : α) :
    (m.set l u v).get? p = if l ≤ p ∧ p < u then some v else m.get? p := get?_update m l u _ p

theorem get?_erase (m : IntervalMap α) (l u p : Nat) :
    (m.erase l u).get? p = if l ≤ p ∧ p < u then none else m.get? p := get?_update m l u _ p

/-- The number at a point, zero where there is none. -/
def count (m : IntervalMap Int) (p : Nat) : Int := (m.get? p).getD 0

theorem count_add (m : IntervalMap Int) (l u : Nat) (d : Int) (p : Nat) :
    (m.add l u d).count p = if l ≤ p ∧ p < u then m.count p + d else m.count p := by
  unfold count add
  rw [get?_update]
  split_ifs with hp hz
  · simp [hz]
  · rfl
  · rfl

end IntervalMap

end SweepDSEmu
