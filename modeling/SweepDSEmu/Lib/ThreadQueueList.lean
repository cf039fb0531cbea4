import Mathlib.Algebra.BigOperators.Group.Finset.Piecewise
import Mathlib.Algebra.GroupWithZero.Nat

/-!
# Queues by priority level

One queue for each priority level.  The levels that have ever been used are linked in increasing order, so that a search
for the first element only visits these.

* The bottom of the file is the data structure as it is programmed: `first`, and for each level the next linked level.
* `WF` says that the links enumerate the linked levels.  Then a search from `first` never follows a link that leads
  nowhere.
* What an operation does to the elements is said by `count`, the number of occurrences of an element in a level.
-/

namespace SweepDSEmu

open Function

/-- Queues of elements of `T`, one for each level.  `nextNonempty` is `none` for a level that has never been used, and
`some none` for the last linked level. -/
structure ThreadQueueList (T : Type) where
  first : Option Nat := none
  nextNonempty : Nat → Option (Option Nat) := fun _ => none
  data : Nat → List T := fun _ => []

namespace ThreadQueueList

variable {T : Type}

/-- The first element from the level `cur` on, with its level; `none` when a link is followed that is no level. -/
def seek (q : ThreadQueueList T) : Nat → Option Nat → Option (Option (Nat × T))
  | _, none => some none
  | 0, some _ => none
  | n + 1, some i =>
    match q.data i with
    | t :: _ => some (some (i, t))
    | [] =>
      match q.nextNonempty i with
      | none => none
      | some cur => q.seek n cur

/-- The first element from the level `cur` on that is before the level `stop`.  The null pointer is smaller than every
pointer to a level, so the loop reads through it. -/
def seekBetter (q : ThreadQueueList T) (stop : Nat) : Nat → Option Nat → Option (Option (Nat × T))
  | _, none => none
  | 0, some _ => none
  | n + 1, some i =>
    if i < stop then
      match q.data i with
      | t :: _ => some (some (i, t))
      | [] =>
        match q.nextNonempty i with
        | none => none
        | some cur => q.seekBetter stop n cur
    else some none

def dropFront (q : ThreadQueueList T) (priority : Nat) : ThreadQueueList T :=
  { q with data := Function.update q.data priority (q.data priority).tail }

/-- The result of a search, with the element found removed. -/
def popped (q : ThreadQueueList T) : Option (Nat × T) → Option (Nat × T) × ThreadQueueList T
  | none => (none, q)
  | some (i, t) => (some (i, t), q.dropFront i)

def getFirst (numQueues : Nat) (q : ThreadQueueList T) : Option (Option T) :=
  (q.seek numQueues q.first).map fun r => r.map Prod.snd

def popFirst (numQueues : Nat) (q : ThreadQueueList T) : Option (Option (Nat × T) × ThreadQueueList T) :=
  (q.seek numQueues q.first).map q.popped

def popFirstBetter (numQueues priority : Nat) (q : ThreadQueueList T) :
    Option (Option (Nat × T) × ThreadQueueList T) :=
  (q.seekBetter priority numQueues q.first).map q.popped

def pushFront (q : ThreadQueueList T) (priority : Nat) (t : T) : ThreadQueueList T :=
  { q with data := Function.update q.data priority (t :: q.data priority) }

def pushBack (q : ThreadQueueList T) (priority : Nat) (t : T) : ThreadQueueList T :=
  { q with data := Function.update q.data priority (q.data priority ++ [t]) }

def remove [DecidableEq T] (q : ThreadQueueList T) (priority : Nat) (t : T) : ThreadQueueList T :=
  { q with data := Function.update q.data priority ((q.data priority).filter (· ≠ t)) }

/-- The level has been used. -/
def Linked (q : ThreadQueueList T) (i : Nat) : Prop := q.nextNonempty i ≠ none

instance (q : ThreadQueueList T) (i : Nat) : Decidable (q.Linked i) := inferInstanceAs (Decidable (_ ≠ _))

def prevLinked (q : ThreadQueueList T) : Nat → Option Nat
  | 0 => none
  | i + 1 => if q.Linked i then some i else q.prevLinked i

def link (q : ThreadQueueList T) (priority : Nat) : ThreadQueueList T :=
  match q.prevLinked priority with
  | some i =>
    { q with
      nextNonempty := Function.update (Function.update q.nextNonempty priority (q.nextNonempty i)) i
        (some (some priority)) }
  | none =>
    { q with
      first := some priority
      nextNonempty := Function.update q.nextNonempty priority (some q.first) }

def prepare (q : ThreadQueueList T) (priority : Nat) : ThreadQueueList T :=
  if q.Linked priority then q else q.link priority

def move [DecidableEq T] (q : ThreadQueueList T) (t : T) (oldPriority newPriority : Nat) : ThreadQueueList T :=
  ((q.remove oldPriority t).prepare newPriority).pushBack newPriority t

/-- The least number with a property, `none` when there is none. -/
def Least (P : Nat → Prop) : Option Nat → Prop
  | none => ∀ i, ¬ P i
  | some i => P i ∧ ∀ j, P j → i ≤ j

/-- The links enumerate the linked levels, which are below `numQueues`. -/
structure WF (numQueues : Nat) (q : ThreadQueueList T) : Prop where
  first : Least q.Linked q.first
  next : ∀ i cur, q.nextNonempty i = some cur → Least (fun j => i < j ∧ q.Linked j) cur
  bound : ∀ i, q.Linked i → i < numQueues

variable {numQueues : Nat} {q : ThreadQueueList T}

theorem WF.empty : WF numQueues ({} : ThreadQueueList T) where
  first := fun _ h => h rfl
  next := fun _ _ h => by cases h
  bound := fun _ h => absurd rfl h

theorem WF.congr (h : WF numQueues q) {q' : ThreadQueueList T} (hfirst : q'.first = q.first)
    (hnext : q'.nextNonempty = q.nextNonempty) : WF numQueues q' := by
  have hl : q'.Linked = q.Linked := by
    funext i
    unfold Linked
    rw [hnext]
  constructor
  · rw [hl, hfirst]
    exact h.first
  · rw [hl, hnext]
    exact h.next
  · rw [hl]
    exact h.bound

theorem WF.pushFront (h : WF numQueues q) (p : Nat) (t : T) : WF numQueues (q.pushFront p t) := h.congr rfl rfl

theorem WF.pushBack (h : WF numQueues q) (p : Nat) (t : T) : WF numQueues (q.pushBack p t) := h.congr rfl rfl

theorem WF.remove [DecidableEq T] (h : WF numQueues q) (p : Nat) (t : T) : WF numQueues (q.remove p t) :=
  h.congr rfl rfl

private theorem prevLinked_spec (q : ThreadQueueList T) (p : Nat) :
    match q.prevLinked p with
    | some i => i < p ∧ q.Linked i ∧ ∀ j, i < j → j < p → ¬ q.Linked j
    | none => ∀ j, j < p → ¬ q.Linked j := by
  induction p with
  | zero => exact fun j hj => absurd hj (Nat.not_lt_zero j)
  | succ p ih =>
    unfold prevLinked
    by_cases hp : q.Linked p
    · rw [if_pos hp]
      exact ⟨Nat.lt_succ_self p, hp, fun j h1 h2 => by omega⟩
    · rw [if_neg hp]
      cases hi : q.prevLinked p with
      | none =>
        rw [hi] at ih
        intro j hj
        by_cases hjp : j = p
        · exact hjp ▸ hp
        · exact ih j (by omega)
      | some i =>
        rw [hi] at ih
        obtain ⟨h1, h2, h3⟩ := ih
        refine ⟨by omega, h2, fun j hj1 hj2 => ?_⟩
        by_cases hjp : j = p
        · exact hjp ▸ hp
        · exact h3 j hj1 (by omega)

theorem linked_link (q : ThreadQueueList T) (p i : Nat) (hp : ¬ q.Linked p) :
    (q.link p).Linked i ↔ i = p ∨ q.Linked i := by
  have hprev := prevLinked_spec q p
  unfold link
  cases h : q.prevLinked p with
  | none =>
    simp only [Linked, update_apply]
    by_cases hi : i = p <;> simp [hi]
  | some j =>
    rw [h] at hprev
    obtain ⟨-, hj, -⟩ := hprev
    unfold Linked at hj
    simp only [Linked, update_apply]
    by_cases hij : i = j
    · subst hij
      simp [hj]
    · by_cases hi : i = p
      · subst hi
        simp [hij, hj]
      · simp [hij, hi]

theorem linked_prepare (q : ThreadQueueList T) (p i : Nat) : (q.prepare p).Linked i ↔ i = p ∨ q.Linked i := by
  unfold prepare
  by_cases hp : q.Linked p
  · rw [if_pos hp]
    exact ⟨Or.inr, fun h => h.elim (fun h => h ▸ hp) id⟩
  · rw [if_neg hp]
    exact linked_link q p i hp

variable {ls : List Nat} {p : Nat} {t : T}

private theorem Least.insert {P P' : Nat → Prop} (hp : P' p) (hle : ∀ i, P i → p ≤ i)
    (hP : ∀ i, P' i → i = p ∨ P i) : Least P' (some p) := by
  refine ⟨hp, fun j hj => ?_⟩
  rcases hP j hj with rfl | hj
  · exact Nat.le_refl j
  · exact hle j hj

theorem Least.of_iff {P P' : Nat → Prop} {o : Option Nat} (h : Least P o) (hP : ∀ i, P' i ↔ P i) :
    Least P' o := by
  cases o with
  | none => exact fun i hi => h i ((hP i).mp hi)
  | some i => exact ⟨(hP i).mpr h.1, fun j hj => h.2 j ((hP j).mp hj)⟩

private theorem Least.insert_large {P P' : Nat → Prop} {o : Option Nat} {p j : Nat} (h : Least P o) (hj : P j)
    (hjp : j < p) (hP : ∀ i, P' i ↔ i = p ∨ P i) : Least P' o := by
  cases o with
  | none => exact absurd hj (h j)
  | some i =>
    refine ⟨(hP i).mpr (Or.inr h.1), fun k hk => ?_⟩
    rcases (hP k).mp hk with rfl | hk
    · have := h.2 j hj
      omega
    · exact h.2 k hk

theorem WF.link (h : WF numQueues q) (hp : ¬ q.Linked p) (hlt : p < numQueues) : WF numQueues (q.link p) := by
  have hlink := fun i => linked_link q p i hp
  have hprev := prevLinked_spec q p
  have hbound : ∀ i, (q.link p).Linked i → i < numQueues := by
    intro i hi
    rcases (hlink i).mp hi with rfl | hi
    · exact hlt
    · exact h.bound i hi
  cases hq : q.prevLinked p with
  | none =>
    rw [hq] at hprev
    have hge : ∀ i, q.Linked i → p ≤ i := fun i hi => Nat.le_of_not_lt fun hlt => hprev i hlt hi
    have hfirst : (q.link p).first = some p := by simp [ThreadQueueList.link, hq]
    have hnext : (q.link p).nextNonempty = update q.nextNonempty p (some q.first) := by
      simp [ThreadQueueList.link, hq]
    refine ⟨?_, ?_, hbound⟩
    · rw [hfirst]
      exact Least.insert ((hlink p).mpr (Or.inl rfl)) hge fun i hi => (hlink i).mp hi
    · intro i cur hcur
      rw [hnext, update_apply] at hcur
      split at hcur
      · -- the new level is linked to what was first
        rename_i hi
        subst hi
        cases hcur
        refine h.first.of_iff fun j => ?_
        rw [hlink]
        constructor
        · rintro ⟨h1, rfl | h2⟩
          · omega
          · exact h2
        · intro hj
          refine ⟨?_, Or.inr hj⟩
          have := hge j hj
          have : j ≠ i := fun e => hp (e ▸ hj)
          omega
      · refine (h.next i cur hcur).of_iff fun j => ?_
        rw [hlink]
        constructor
        · rintro ⟨h1, rfl | h2⟩
          · have := hge i (by rw [Linked, hcur]; simp)
            omega
          · exact ⟨h1, h2⟩
        · exact fun hj => ⟨hj.1, Or.inr hj.2⟩
  | some k =>
    rw [hq] at hprev
    obtain ⟨hkp, hk, hbetween⟩ := hprev
    have hfirst : (q.link p).first = q.first := by simp [ThreadQueueList.link, hq]
    have hnext : (q.link p).nextNonempty =
        update (update q.nextNonempty p (q.nextNonempty k)) k (some (some p)) := by
      simp [ThreadQueueList.link, hq]
    refine ⟨?_, ?_, hbound⟩
    · rw [hfirst]
      exact h.first.insert_large hk hkp hlink
    · intro i cur hcur
      rw [hnext, update_apply] at hcur
      split at hcur
      · -- the level before the new one
        rename_i hi
        subst hi
        cases hcur
        refine ⟨⟨hkp, (hlink p).mpr (Or.inl rfl)⟩, fun j hj => ?_⟩
        rcases (hlink j).mp hj.2 with rfl | hjl
        · exact Nat.le_refl j
        · exact Nat.le_of_not_lt fun hlt => hbetween j hj.1 hlt hjl
      · rename_i hik
        rw [update_apply] at hcur
        split at hcur
        · rename_i hi
          subst hi
          refine (h.next k cur hcur).of_iff fun j => ?_
          rw [hlink]
          constructor
          · rintro ⟨h1, rfl | h2⟩
            · omega
            · exact ⟨by omega, h2⟩
          · rintro ⟨h1, h2⟩
            refine ⟨?_, Or.inr h2⟩
            by_contra hle
            by_cases hji : j = i
            · exact hp (hji ▸ h2)
            · exact hbetween j h1 (by omega) h2
        · by_cases hip : i < p
          · have hi : q.Linked i := by
              rw [Linked, hcur]
              simp
            have hik' : i < k := by
              by_contra hge
              exact hbetween i (by omega) hip hi
            refine (h.next i cur hcur).insert_large ⟨hik', hk⟩ hkp fun j => ?_
            rw [hlink]
            constructor
            · rintro ⟨h1, rfl | h2⟩
              · exact Or.inl rfl
              · exact Or.inr ⟨h1, h2⟩
            · rintro (rfl | hj)
              · exact ⟨hip, Or.inl rfl⟩
              · exact ⟨hj.1, Or.inr hj.2⟩
          · refine (h.next i cur hcur).of_iff fun j => ?_
            rw [hlink]
            constructor
            · rintro ⟨h1, rfl | h2⟩
              · omega
              · exact ⟨h1, h2⟩
            · exact fun hj => ⟨hj.1, Or.inr hj.2⟩

theorem WF.prepare (h : WF numQueues q) (hlt : p < numQueues) : WF numQueues (q.prepare p) := by
  unfold ThreadQueueList.prepare
  split
  · exact h
  · rename_i hp
    exact h.link hp hlt

theorem WF.move [DecidableEq T] (h : WF numQueues q) (t : T) (p : Nat) {p' : Nat} (hlt : p' < numQueues) :
    WF numQueues (q.move t p p') := ((h.remove p t).prepare hlt).pushBack p' t

theorem linked_move [DecidableEq T] (q : ThreadQueueList T) (t : T) (p p' i : Nat) :
    (q.move t p p').Linked i ↔ i = p' ∨ q.Linked i := linked_prepare (q.remove p t) p' i

theorem seek_front {n : Nat} {cur : Option Nat} {i : Nat} (h : q.seek n cur = some (some (i, t))) :
    q.data i = t :: (q.data i).tail := by
  induction n generalizing cur with
  | zero => cases cur <;> simp [seek] at h
  | succ n ih =>
    cases cur with
    | none => simp [seek] at h
    | some j =>
      unfold seek at h
      split at h
      · rename_i hd
        obtain ⟨rfl, rfl⟩ := h
        rw [hd]
        rfl
      · split at h
        · cases h
        · exact ih h

theorem seekBetter_front {stop n : Nat} {cur : Option Nat} {i : Nat}
    (h : q.seekBetter stop n cur = some (some (i, t))) : q.data i = t :: (q.data i).tail := by
  induction n generalizing cur with
  | zero => cases cur <;> simp [seekBetter] at h
  | succ n ih =>
    cases cur with
    | none => simp [seekBetter] at h
    | some j =>
      unfold seekBetter at h
      split at h
      · split at h
        · rename_i hd
          obtain ⟨rfl, rfl⟩ := h
          rw [hd]
          rfl
        · split at h
          · cases h
          · exact ih h
      · cases h

theorem WF.seek_ne_none (h : WF numQueues q) : q.seek numQueues q.first ≠ none := by
  have key : ∀ n cur, (∀ i, cur = some i → q.Linked i ∧ numQueues ≤ i + n) → q.seek n cur ≠ none := by
    intro n
    induction n with
    | zero =>
      intro cur hcur
      cases cur with
      | none => simp [seek]
      | some i =>
        obtain ⟨hi, hn⟩ := hcur i rfl
        have := h.bound i hi
        omega
    | succ n ih =>
      intro cur hcur
      cases cur with
      | none => simp [seek]
      | some i =>
        obtain ⟨hi, hn⟩ := hcur i rfl
        unfold seek
        split
        · simp
        · cases hc : q.nextNonempty i with
          | none => exact absurd hc hi
          | some next =>
            refine ih next fun j hj => ?_
            have := h.next i next hc
            rw [hj] at this
            exact ⟨this.1.2, by have := this.1.1; omega⟩
  refine key numQueues q.first fun i hi => ?_
  have := h.first
  rw [hi] at this
  exact ⟨this.1, by omega⟩

theorem WF.seekBetter_ne_none (h : WF numQueues q) {stop : Nat} (hstop : q.Linked stop) :
    q.seekBetter stop numQueues q.first ≠ none := by
  have key : ∀ n cur, (∃ i, cur = some i ∧ q.Linked i ∧ i ≤ stop ∧ numQueues ≤ i + n) →
      q.seekBetter stop n cur ≠ none := by
    intro n
    induction n with
    | zero =>
      rintro cur ⟨i, rfl, hi, -, hn⟩
      have := h.bound i hi
      omega
    | succ n ih =>
      rintro cur ⟨i, rfl, hi, hle, hn⟩
      unfold seekBetter
      split
      · rename_i hlt
        split
        · simp
        · cases hc : q.nextNonempty i with
          | none => exact absurd hc hi
          | some next =>
            have hnext := h.next i next hc
            cases next with
            | none => exact absurd ⟨hlt, hstop⟩ (hnext stop)
            | some j =>
              refine ih (some j) ⟨j, rfl, hnext.1.2, hnext.2 stop ⟨hlt, hstop⟩, ?_⟩
              have := hnext.1.1
              omega
      · simp
  have hfirst := h.first
  cases hq : q.first with
  | none =>
    rw [hq] at hfirst
    exact absurd hstop (hfirst stop)
  | some i =>
    rw [hq] at hfirst
    exact key numQueues (some i) ⟨i, rfl, hfirst.1, hfirst.2 stop hstop, by omega⟩

theorem WF.popFirst_cases (h : WF numQueues q) :
    q.popFirst numQueues = some (none, q) ∨
      ∃ p t, q.popFirst numQueues = some (some (p, t), q.dropFront p) ∧ q.data p = t :: (q.data p).tail := by
  unfold popFirst
  cases hs : q.seek numQueues q.first with
  | none => exact absurd hs h.seek_ne_none
  | some r =>
    cases r with
    | none => exact Or.inl rfl
    | some e => exact Or.inr ⟨e.1, e.2, rfl, seek_front hs⟩

/-- `pop_first_better` finds nothing, or takes the front of a level. -/
theorem WF.popFirstBetter_cases (h : WF numQueues q) {stop : Nat} (hstop : q.Linked stop) :
    q.popFirstBetter numQueues stop = some (none, q) ∨
      ∃ p t, q.popFirstBetter numQueues stop = some (some (p, t), q.dropFront p) ∧
        q.data p = t :: (q.data p).tail := by
  unfold popFirstBetter
  cases hs : q.seekBetter stop numQueues q.first with
  | none => exact absurd hs (h.seekBetter_ne_none hstop)
  | some r =>
    cases r with
    | none => exact Or.inl rfl
    | some e => exact Or.inr ⟨e.1, e.2, rfl, seekBetter_front hs⟩

def levels (q : ThreadQueueList T) (ls : List Nat) : List (Nat × T) := ls.flatMap fun p => (q.data p).map (Prod.mk p)

def toList (numQueues : Nat) (q : ThreadQueueList T) : List (Nat × T) := q.levels (List.range numQueues)

def Filled (q : ThreadQueueList T) : Prop := ∀ p t, t ∈ q.data p → q.Linked p

theorem levels_cons (q : ThreadQueueList T) (i : Nat) (ls : List Nat) :
    q.levels (i :: ls) = (q.data i).map (Prod.mk i) ++ q.levels ls := rfl

theorem levels_congr {q q' : ThreadQueueList T} (h : ∀ i ∈ ls, q'.data i = q.data i) :
    q'.levels ls = q.levels ls := by
  induction ls with
  | nil => rfl
  | cons i ls ih =>
    rw [levels_cons, levels_cons, h i List.mem_cons_self, ih fun j hj => h j (List.mem_cons_of_mem i hj)]

theorem mem_levels : (p, t) ∈ q.levels ls ↔ p ∈ ls ∧ t ∈ q.data p := by
  simp only [levels, List.mem_flatMap, List.mem_map, Prod.mk.injEq]
  constructor
  · rintro ⟨i, hi, u, hu, rfl, rfl⟩
    exact ⟨hi, hu⟩
  · rintro ⟨hp, ht⟩
    exact ⟨p, hp, t, ht, rfl, rfl⟩

theorem mem_toList : (p, t) ∈ q.toList numQueues ↔ p < numQueues ∧ t ∈ q.data p := by
  rw [toList, mem_levels, List.mem_range]

theorem pairwise_levels (h : ls.Pairwise (· < ·)) : (q.levels ls).Pairwise fun e e' => e.1 ≤ e'.1 := by
  induction ls with
  | nil => exact List.Pairwise.nil
  | cons i ls ih =>
    obtain ⟨hi, hls⟩ := List.pairwise_cons.mp h
    rw [levels_cons, List.pairwise_append]
    refine ⟨?_, ih hls, ?_⟩
    · rw [List.pairwise_map]
      exact List.pairwise_of_forall fun _ _ => Nat.le_refl i
    · rintro ⟨j, u⟩ hu ⟨k, v⟩ hv
      obtain ⟨w, -, hw⟩ := List.mem_map.mp hu
      cases hw
      exact Nat.le_of_lt (hi k (mem_levels.mp hv).1)

theorem pairwise_toList (q : ThreadQueueList T) (numQueues : Nat) :
    (q.toList numQueues).Pairwise fun e e' => e.1 ≤ e'.1 := pairwise_levels List.pairwise_lt_range

private theorem filter_levels (hls : ls.Nodup) (p : Nat) :
    ((q.levels ls).filter fun e => e.1 = p).map Prod.snd = if p ∈ ls then q.data p else [] := by
  induction ls with
  | nil => rfl
  | cons i ls ih =>
    obtain ⟨hi, hls⟩ := List.nodup_cons.mp hls
    rw [levels_cons, List.filter_append, List.map_append, ih hls, List.filter_map, List.map_map]
    by_cases hp : i = p
    · subst hp
      simp [hi, Function.comp_def]
    · simp [hp, Ne.symm hp, Function.comp_def]

theorem data_eq_toList (hp : p < numQueues) :
    q.data p = ((q.toList numQueues).filter fun e => e.1 = p).map Prod.snd := by
  rw [toList, filter_levels List.nodup_range, if_pos (List.mem_range.mpr hp)]

private theorem levels_dropFront (hls : ls.Nodup) {l : List (Nat × T)}
    (h : q.levels ls = (p, t) :: l) : (q.dropFront p).levels ls = l := by
  induction ls with
  | nil => cases h
  | cons i ls ih =>
    obtain ⟨hi, hls⟩ := List.nodup_cons.mp hls
    have hother : ∀ j, j ≠ p → (q.dropFront p).data j = q.data j := fun j hj => update_of_ne hj ..
    rw [levels_cons] at h ⊢
    cases hd : q.data i with
    | nil =>
      rw [hd] at h
      have hne : i ≠ p := by
        rintro rfl
        have hmem : (i, t) ∈ q.levels ls := by
          rw [show q.levels ls = (i, t) :: l from h]
          exact List.mem_cons_self
        exact hi (mem_levels.mp hmem).1
      rw [hother i hne, hd]
      exact ih hls h
    | cons u us =>
      rw [hd] at h
      simp only [List.map_cons, List.cons_append, List.cons.injEq, Prod.mk.injEq] at h
      obtain ⟨⟨rfl, rfl⟩, hl⟩ := h
      have hself : (q.dropFront i).data i = us := by
        show update q.data i (q.data i).tail i = us
        rw [update_self, hd, List.tail_cons]
      rw [hself, ← hl, levels_congr fun j hj => hother j fun hji => hi (hji ▸ hj)]

theorem toList_dropFront {l : List (Nat × T)} (h : q.toList numQueues = (p, t) :: l) :
    (q.dropFront p).toList numQueues = l := levels_dropFront List.nodup_range h

private theorem levels_pushFront (hls : ls.Pairwise (· < ·)) (hp : p ∈ ls) (t : T)
    (hle : ∀ e ∈ q.levels ls, p ≤ e.1) : (q.pushFront p t).levels ls = (p, t) :: q.levels ls := by
  induction ls with
  | nil => cases hp
  | cons i ls ih =>
    obtain ⟨hi, hls⟩ := List.pairwise_cons.mp hls
    have hother : ∀ j, j ≠ p → (q.pushFront p t).data j = q.data j := fun j hj => update_of_ne hj ..
    rw [levels_cons, levels_cons]
    by_cases hip : i = p
    · subst hip
      have hself : (q.pushFront i t).data i = t :: q.data i := update_self ..
      rw [hself, levels_congr fun j hj => hother j (Nat.ne_of_gt (hi j hj))]
      rfl
    · have hpls : p ∈ ls := (List.mem_cons.mp hp).resolve_left (Ne.symm hip)
      have hempty : q.data i = [] := by
        apply List.eq_nil_iff_forall_not_mem.mpr
        intro u hu
        have h1 := hle (i, u) (mem_levels.mpr ⟨List.mem_cons_self, hu⟩)
        have h2 := hi p hpls
        simp only at h1
        omega
      rw [hother i hip, hempty]
      refine ih hls hpls fun e he => hle e ?_
      exact List.mem_append_right _ he

/-- An element of a level that is not after the others becomes the first one. -/
theorem toList_pushFront (hp : p < numQueues) (t : T) (hle : ∀ e ∈ q.toList numQueues, p ≤ e.1) :
    (q.pushFront p t).toList numQueues = (p, t) :: q.toList numQueues :=
  levels_pushFront List.pairwise_lt_range (List.mem_range.mpr hp) t hle

private theorem levels_range'_of_empty {lo k : Nat} (h : q.data lo = []) :
    q.levels (List.range' lo (k + 1)) = q.levels (List.range' (lo + 1) k) := by
  rw [List.range'_succ, levels_cons, h]
  rfl

private theorem levels_range'_of_cons {lo k : Nat} {ts : List T} (h : q.data lo = t :: ts) :
    (q.levels (List.range' lo (k + 1))).head? = some (lo, t) := by
  rw [List.range'_succ, levels_cons, h]
  rfl

theorem Filled.eq_nil (hf : q.Filled) (hp : ¬ q.Linked p) : q.data p = [] :=
  List.eq_nil_iff_forall_not_mem.mpr fun t ht => hp (hf p t ht)

theorem Least.succ {P : Nat → Prop} {lo : Nat} {cur : Option Nat} (h : Least (fun j => lo ≤ j ∧ P j) cur)
    (hlo : cur ≠ some lo) : ¬ P lo ∧ Least (fun j => lo + 1 ≤ j ∧ P j) cur := by
  have hnot : ¬ P lo := by
    intro hP
    cases cur with
    | none => exact h lo ⟨Nat.le_refl lo, hP⟩
    | some i =>
      have h1 := h.2 lo ⟨Nat.le_refl lo, hP⟩
      have h2 := h.1.1
      exact hlo (congrArg some (Nat.le_antisymm h1 h2))
  refine ⟨hnot, h.of_iff fun j => ?_⟩
  constructor
  · exact fun hj => ⟨Nat.le_of_succ_le hj.1, hj.2⟩
  · rintro ⟨hj, hP⟩
    have : j ≠ lo := fun e => hnot (e ▸ hP)
    exact ⟨by omega, hP⟩

theorem WF.seek_eq (h : WF numQueues q) (hf : q.Filled) :
    q.seek numQueues q.first = some (q.toList numQueues).head? := by
  have key : ∀ k lo n cur, lo + k = numQueues → k ≤ n → Least (fun j => lo ≤ j ∧ q.Linked j) cur →
      q.seek n cur = some (q.levels (List.range' lo k)).head? := by
    intro k
    induction k with
    | zero =>
      intro lo n cur hlo _ hcur
      cases cur with
      | none =>
        unfold seek
        rfl
      | some i =>
        have := h.bound i hcur.1.2
        have := hcur.1.1
        omega
    | succ k ih =>
      intro lo n cur hlo hn hcur
      by_cases hc : cur = some lo
      · subst hc
        obtain ⟨n, rfl⟩ : ∃ m, n = m + 1 := ⟨n - 1, by omega⟩
        unfold seek
        cases hd : q.data lo with
        | cons t ts => rw [levels_range'_of_cons hd]
        | nil =>
          rw [levels_range'_of_empty hd]
          cases hnext : q.nextNonempty lo with
          | none => exact absurd hnext hcur.1.2
          | some next => exact ih (lo + 1) n next (by omega) (by omega) (h.next lo next hnext)
      · obtain ⟨hnot, hleast⟩ := hcur.succ hc
        rw [levels_range'_of_empty (hf.eq_nil hnot)]
        exact ih (lo + 1) n cur (by omega) (by omega) hleast
  rw [toList, List.range_eq_range']
  exact key numQueues 0 numQueues q.first (Nat.zero_add _) (Nat.le_refl _)
    (h.first.of_iff fun j => ⟨And.right, fun hj => ⟨Nat.zero_le j, hj⟩⟩)

theorem WF.seekBetter_eq (h : WF numQueues q) (hf : q.Filled) {stop : Nat} (hstop : q.Linked stop) :
    q.seekBetter stop numQueues q.first = some ((q.toList numQueues).head?.filter fun e => e.1 < stop) := by
  have key : ∀ k lo n cur, lo + k = numQueues → k ≤ n → lo ≤ stop → Least (fun j => lo ≤ j ∧ q.Linked j) cur →
      q.seekBetter stop n cur = some ((q.levels (List.range' lo k)).head?.filter fun e => e.1 < stop) := by
    intro k
    induction k with
    | zero =>
      intro lo n cur hlo _ hle hcur
      have := h.bound stop hstop
      omega
    | succ k ih =>
      intro lo n cur hlo hn hle hcur
      by_cases hc : cur = some lo
      · subst hc
        obtain ⟨n, rfl⟩ : ∃ m, n = m + 1 := ⟨n - 1, by omega⟩
        unfold seekBetter
        by_cases hlt : lo < stop
        · rw [if_pos hlt]
          cases hd : q.data lo with
          | cons t ts =>
            rw [levels_range'_of_cons hd, Option.filter_some, if_pos (by simpa using hlt)]
          | nil =>
            rw [levels_range'_of_empty hd]
            cases hnext : q.nextNonempty lo with
            | none => exact absurd hnext hcur.1.2
            | some next => exact ih (lo + 1) n next (by omega) (by omega) (by omega) (h.next lo next hnext)
        · rw [if_neg hlt]
          -- no element of these levels is before the level at which the search stops
          congr 1
          refine (Option.filter_eq_none_iff.mpr ?_).symm
          rintro ⟨i, u⟩ he
          have hmem := (mem_levels.mp (List.mem_of_mem_head? he)).1
          rw [List.mem_range'_1] at hmem
          simp only [decide_eq_true_eq]
          omega
      · obtain ⟨hnot, hleast⟩ := hcur.succ hc
        rw [levels_range'_of_empty (hf.eq_nil hnot)]
        have hne : lo ≠ stop := fun e => hnot (e ▸ hstop)
        exact ih (lo + 1) n cur (by omega) (by omega) (by omega) hleast
  rw [toList, List.range_eq_range']
  exact key numQueues 0 numQueues q.first (Nat.zero_add _) (Nat.le_refl _) (Nat.zero_le stop)
    (h.first.of_iff fun j => ⟨And.right, fun hj => ⟨Nat.zero_le j, hj⟩⟩)

theorem Filled.dropFront (hf : q.Filled) (p : Nat) : (q.dropFront p).Filled := by
  intro i t ht
  apply hf i t
  have ht' : t ∈ update q.data p (q.data p).tail i := ht
  rw [update_apply] at ht'
  split at ht'
  · rename_i hi
    rw [hi]
    exact List.mem_of_mem_tail ht'
  · exact ht'

variable [DecidableEq T]

def count (q : ThreadQueueList T) (p : Nat) (t : T) : Nat := (q.data p).count t

variable (q)

@[simp] theorem count_prepare (p i : Nat) (t : T) : (q.prepare p).count i t = q.count i t := by
  unfold prepare link
  split
  · rfl
  · split <;> rfl

private theorem count_update (p i : Nat) (l : List T) (u : T) :
    count { q with data := update q.data p l } i u = if i = p then l.count u else q.count i u := by
  unfold count
  simp only [update_apply]
  split_ifs <;> rfl

theorem count_pushFront (p i : Nat) (t u : T) :
    (q.pushFront p t).count i u = q.count i u + if i = p ∧ u = t then 1 else 0 := by
  rw [pushFront, count_update]
  by_cases hi : i = p
  · subst hi
    simp [count, List.count_cons, @eq_comm T u]
  · simp [hi]

theorem count_pushBack (p i : Nat) (t u : T) :
    (q.pushBack p t).count i u = q.count i u + if i = p ∧ u = t then 1 else 0 := by
  rw [pushBack, count_update]
  by_cases hi : i = p
  · subst hi
    simp [count, List.count_cons, @eq_comm T u]
  · simp [hi]

theorem count_remove (p i : Nat) (t u : T) :
    (q.remove p t).count i u = if i = p ∧ u = t then 0 else q.count i u := by
  rw [remove, count_update]
  by_cases hi : i = p
  · subst hi
    by_cases hu : u = t
    · subst hu
      simp [List.count_eq_zero]
    · simp only [if_true, hu, and_false, if_false]
      exact List.count_filter (by simpa using hu)
  · simp [hi]

theorem count_move (t : T) (p p' i : Nat) (u : T) :
    (q.move t p p').count i u = (if i = p ∧ u = t then 0 else q.count i u) + if i = p' ∧ u = t then 1 else 0 := by
  unfold move
  rw [count_pushBack, count_prepare, count_remove]

theorem count_dropFront (h : q.data p = t :: (q.data p).tail) (i : Nat) (u : T) :
    q.count i u = (q.dropFront p).count i u + if i = p ∧ u = t then 1 else 0 := by
  rw [dropFront, count_update]
  by_cases hi : i = p
  · subst hi
    rw [if_pos rfl, count]
    nth_rewrite 1 [h]
    simp [List.count_cons, @eq_comm T u]
  · simp [hi]

def size (numQueues : Nat) (q : ThreadQueueList T) : Nat := ((List.range numQueues).map fun i => (q.data i).length).sum

omit [DecidableEq T] in
private theorem size_eq_sum : q.size numQueues = ∑ i ∈ Finset.range numQueues, (q.data i).length := rfl

omit [DecidableEq T] in
private theorem size_update (hp : p < numQueues) (l : List T) :
    size numQueues { q with data := update q.data p l } + (q.data p).length = q.size numQueues + l.length := by
  have hmem : p ∈ Finset.range numQueues := Finset.mem_range.mpr hp
  rw [size_eq_sum, size_eq_sum, ← Finset.add_sum_erase _ _ hmem, ← Finset.add_sum_erase _ _ hmem]
  have hrest : ∑ i ∈ (Finset.range numQueues).erase p, (update q.data p l i).length =
      ∑ i ∈ (Finset.range numQueues).erase p, (q.data i).length := by
    refine Finset.sum_congr rfl fun i hi => ?_
    rw [update_of_ne (Finset.mem_erase.mp hi).1]
  simp only [update_self]
  omega

omit [DecidableEq T] in
theorem size_dropFront (h : q.data p = t :: (q.data p).tail) (hp : p < numQueues) :
    (q.dropFront p).size numQueues + 1 = q.size numQueues := by
  have hsize := size_update q hp (q.data p).tail
  have hlen := congrArg List.length h
  rw [List.length_cons] at hlen
  unfold dropFront
  omega

omit [DecidableEq T] in
theorem size_pushFront (hp : p < numQueues) (t : T) : (q.pushFront p t).size numQueues = q.size numQueues + 1 := by
  have hsize := size_update q hp (t :: q.data p)
  rw [List.length_cons] at hsize
  unfold pushFront
  omega

theorem size_eq_of_count {q q' : ThreadQueueList T} (h : ∀ p t, q.count p t = q'.count p t) :
    q.size numQueues = q'.size numQueues := by
  have hlen : ∀ p, (q.data p).length = (q'.data p).length := by
    intro p
    have hperm : (q.data p).Perm (q'.data p) := List.perm_iff_count.mpr fun t => h p t
    exact hperm.length_eq
  unfold size
  simp only [hlen]

theorem size_eq_succ_of_count {q q' : ThreadQueueList T} (hp : p < numQueues)
    (h : ∀ i u, q.count i u = q'.count i u + if i = p ∧ u = t then 1 else 0) :
    q.size numQueues = q'.size numQueues + 1 := by
  have hcount : ∀ i u, q.count i u = (q'.pushFront p t).count i u := by
    intro i u
    rw [count_pushFront]
    exact h i u
  rw [size_eq_of_count hcount, size_pushFront q' hp]

end ThreadQueueList

end SweepDSEmu
