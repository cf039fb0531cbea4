import Mathlib.Data.List.Perm.Basic

/-!
# Priority queues

A queue whose first element has the least key.  How it is laid out, and which one of several elements with the least key
comes first, is left to the implementation.
-/

namespace SweepDSEmu

structure PriorityQueue (α : Type) (key : α → Nat) where
  Queue : Type
  empty : Queue
  push : α → Queue → Queue
  /-- The first element, and the queue without it. -/
  pop : Queue → Option (α × Queue)
  /-- The elements in some order. -/
  elements : Queue → List α
  elements_empty : elements empty = []
  push_perm : ∀ a q, (elements (push a q)).Perm (a :: elements q)
  pop_none : ∀ q, pop q = none ↔ elements q = []
  pop_perm : ∀ q a q', pop q = some (a, q') → (elements q).Perm (a :: elements q')
  pop_least : ∀ q a q', pop q = some (a, q') → ∀ b ∈ elements q', key a ≤ key b

namespace PriorityQueue

variable {α : Type} {key : α → Nat}

def popLeast (key : α → Nat) : List α → Option (α × List α)
  | [] => none
  | a :: q =>
    match popLeast key q with
    | none => some (a, [])
    | some (b, q') => if key a ≤ key b then some (a, q) else some (b, a :: q')

variable (key) in
private theorem popLeast_spec (q : List α) :
    (popLeast key q = none ∧ q = []) ∨
      ∃ a q', popLeast key q = some (a, q') ∧ q.Perm (a :: q') ∧ ∀ b ∈ q', key a ≤ key b := by
  induction q with
  | nil => exact .inl ⟨rfl, rfl⟩
  | cons a q ih =>
    right
    rw [popLeast]
    rcases ih with ⟨hnone, rfl⟩ | ⟨b, q', hsome, hperm, hleast⟩
    · exact ⟨a, [], rfl, .refl _, by simp⟩
    · rw [hsome]
      dsimp only
      by_cases hle : key a ≤ key b
      · rw [if_pos hle]
        refine ⟨a, q, rfl, .refl _, ?_⟩
        intro c hc
        rcases List.mem_cons.mp (hperm.mem_iff.mp hc) with rfl | hc
        · exact hle
        · exact Nat.le_trans hle (hleast c hc)
      · rw [if_neg hle]
        refine ⟨b, a :: q', rfl, (hperm.cons a).trans (.swap b a q'), ?_⟩
        intro c hc
        rcases List.mem_cons.mp hc with rfl | hc
        · omega
        · exact hleast c hc

def ofList (key : α → Nat) : PriorityQueue α key where
  Queue := List α
  empty := []
  push := List.cons
  pop := popLeast key
  elements := id
  elements_empty := rfl
  push_perm := fun _ _ => .refl _
  pop_none := by
    intro q
    rcases popLeast_spec key q with ⟨hnone, hq⟩ | ⟨a, q', hsome, hperm, -⟩
    · exact ⟨fun _ => hq, fun _ => hnone⟩
    · constructor
      · intro hnone
        rw [hnone] at hsome
        cases hsome
      · rintro rfl
        cases hperm.nil_eq
  pop_perm := by
    intro q a q' hpop
    rcases popLeast_spec key q with ⟨hnone, -⟩ | ⟨b, q'', hsome, hperm, -⟩
    · rw [hnone] at hpop
      cases hpop
    · rw [hpop] at hsome
      cases hsome
      exact hperm
  pop_least := by
    intro q a q' hpop
    rcases popLeast_spec key q with ⟨hnone, -⟩ | ⟨b, q'', hsome, -, hleast⟩
    · rw [hnone] at hpop
      cases hpop
    · rw [hpop] at hsome
      cases hsome
      exact hleast

end PriorityQueue

end SweepDSEmu
