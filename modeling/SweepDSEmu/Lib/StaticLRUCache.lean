import Mathlib.Data.List.Perm.Basic
import Mathlib.Data.List.Nodup
import Mathlib.Data.List.Range

/-!
# Caches with statically allocated elements

A cache that evicts the least recently used element when it is full.  An element is requested by its key and filled in place,
so an element that was not there yet holds what was in its place before.
-/

namespace SweepDSEmu

/-- A list of keys with the places of their elements, the most recently used one first. -/
structure StaticLRUCache (κ α : Type) where
  list : List (κ × Nat) := []
  array : Nat → α

namespace StaticLRUCache

variable {κ α : Type} [DecidableEq κ]

def contains (c : StaticLRUCache κ α) (key : κ) : Bool := c.list.any fun el => el.1 = key

/-- Takes the least recently used element out, and says where it is. -/
def evict (c : StaticLRUCache κ α) : Nat × List (κ × Nat) :=
  ((c.list.getLast?.map Prod.snd).getD 0, c.list.dropLast)

/-- Looks for an element or gives it a place.  Returns whether it was there, and its place. -/
def request (capacity : Nat) (c : StaticLRUCache κ α) (key : κ) : Bool × Nat × StaticLRUCache κ α :=
  match c.list.find? fun el => el.1 = key with
  | some el => (true, el.2, { c with list := el :: c.list.eraseP fun el => el.1 = key })
  | none =>
    if capacity ≤ c.list.length then (false, c.evict.1, { c with list := (key, c.evict.1) :: c.evict.2 })
    else (false, c.list.length, { c with list := (key, c.list.length) :: c.list })

def clear (c : StaticLRUCache κ α) : StaticLRUCache κ α := { c with list := [] }

def set (c : StaticLRUCache κ α) (i : Nat) (a : α) : StaticLRUCache κ α := { c with array := Function.update c.array i a }

def Placed (c : StaticLRUCache κ α) : Prop := (c.list.map Prod.snd).Perm (List.range c.list.length)

/-- Every element belongs to its key. -/
def All (Q : κ → α → Prop) (c : StaticLRUCache κ α) : Prop := ∀ el ∈ c.list, Q el.1 (c.array el.2)

variable {Q : κ → α → Prop} {capacity : Nat} {c : StaticLRUCache κ α} {key : κ}

omit [DecidableEq κ] in
theorem clear_placed (c : StaticLRUCache κ α) : c.clear.Placed := List.Perm.refl _

omit [DecidableEq κ] in
theorem clear_all (c : StaticLRUCache κ α) : c.clear.All Q := by simp [All, clear]

theorem request_cases (capacity : Nat) (hcapacity : 0 < capacity) (hc : c.Placed) (key : κ) :
    (∃ i rest, c.request capacity key = (true, i, { c with list := (key, i) :: rest }) ∧ (key, i) ∈ c.list ∧
      (∀ el ∈ rest, el ∈ c.list) ∧ (c.request capacity key).2.2.Placed) ∨
    ∃ i rest, c.request capacity key = (false, i, { c with list := (key, i) :: rest }) ∧
      (∀ el ∈ rest, el ∈ c.list ∧ el.2 ≠ i) ∧ (c.request capacity key).2.2.Placed := by
  unfold request
  cases hfind : c.list.find? fun el => el.1 = key with
  | some el =>
    left
    have hkey : el.1 = key := by simpa using List.find?_some hfind
    have hmem := List.mem_of_find?_eq_some hfind
    refine ⟨el.2, c.list.eraseP fun el => el.1 = key, ?_, ?_, ?_, ?_⟩
    · rw [← hkey]
    · rw [← hkey]
      exact hmem
    · intro el' hel'
      exact List.mem_of_mem_eraseP hel'
    · have hperm : (el :: c.list.eraseP fun el => el.1 = key).Perm c.list := by
        obtain ⟨l₁, hnone, l₂, hlist⟩ : ∃ l₁, (∀ x ∈ l₁, ¬ x.1 = key) ∧ ∃ l₂, c.list = l₁ ++ el :: l₂ := by
          obtain ⟨-, l₁, l₂, hlist, hnone⟩ := List.find?_eq_some_iff_append.mp hfind
          exact ⟨l₁, by simpa using hnone, l₂, hlist⟩
        rw [hlist, List.eraseP_append_right _ (by simpa using hnone), List.eraseP_cons_of_pos (by simpa using hkey)]
        exact List.perm_middle.symm
      have hlength := hperm.length_eq
      rw [Placed, hlength]
      exact (hperm.map _).trans hc
  | none =>
    right
    dsimp only
    split
    case isTrue hfull =>
      have hne : c.list ≠ [] := by
        intro hnil
        rw [hnil] at hfull
        simp at hfull
        omega
      obtain ⟨init, last, hlist⟩ := List.eq_nil_or_concat c.list |>.resolve_left hne
      rw [List.concat_eq_append] at hlist
      have hevict : c.evict = (last.2, init) := by simp [evict, hlist]
      rw [hevict]
      have hnodup : (c.list.map Prod.snd).Nodup := hc.nodup_iff.mpr List.nodup_range
      refine ⟨last.2, init, rfl, ?_, ?_⟩
      · intro el hel
        rw [hlist, List.map_append, List.nodup_append] at hnodup
        refine ⟨by simp [hlist, hel], ?_⟩
        exact hnodup.2.2 el.2 (List.mem_map_of_mem hel) last.2 (by simp)
      · have hperm : (((key, last.2) :: init).map Prod.snd).Perm (c.list.map Prod.snd) := by
          rw [hlist, List.map_append, List.map_cons]
          exact (List.perm_append_singleton _ _).symm
        have hlength : ((key, last.2) :: init).length = c.list.length := by simp [hlist]
        rw [Placed, hlength]
        exact hperm.trans hc
    case isFalse hroom =>
      refine ⟨c.list.length, c.list, rfl, ?_, ?_⟩
      · intro el hel
        have hlt := List.mem_range.mp (hc.mem_iff.mp (List.mem_map_of_mem hel))
        exact ⟨hel, hlt.ne⟩
      · rw [Placed, List.length_cons, List.range_succ, List.map_cons]
        exact (hc.cons _).trans (List.perm_append_singleton _ _).symm

/-- An element that is there belongs to the key, and a new one can be filled with what belongs to it. -/
theorem request_all (hcapacity : 0 < capacity) (hc : c.Placed) (hall : c.All Q) (key : κ) :
    (∃ i c', c.request capacity key = (true, i, c') ∧ Q key (c'.array i) ∧ c'.All Q ∧ c'.Placed) ∨
    ∃ i c', c.request capacity key = (false, i, c') ∧ ∀ a, Q key a → (c'.set i a).All Q ∧ (c'.set i a).Placed := by
  rcases request_cases capacity hcapacity hc key with
    ⟨i, rest, hrequest, hmem, hrest, hplaced⟩ | ⟨i, rest, hrequest, hrest, hplaced⟩
  · left
    rw [hrequest] at hplaced
    refine ⟨i, _, hrequest, hall (key, i) hmem, ?_, hplaced⟩
    intro el hel
    rcases List.mem_cons.mp hel with rfl | hel
    · exact hall _ hmem
    · exact hall el (hrest el hel)
  · right
    rw [hrequest] at hplaced
    refine ⟨i, _, hrequest, ?_⟩
    intro a ha
    refine ⟨?_, hplaced⟩
    intro el hel
    rcases List.mem_cons.mp hel with rfl | hel
    · change Q key (Function.update c.array i a i)
      rwa [Function.update_self]
    · obtain ⟨hold, hne⟩ := hrest el hel
      change Q el.1 (Function.update c.array i a el.2)
      rw [Function.update_of_ne hne]
      exact hall el hold

end StaticLRUCache

end SweepDSEmu
