import SweepDSEmu.Lib.OrderedMap
import Mathlib.Algebra.BigOperators.Group.List.Basic
import Mathlib.Algebra.GroupWithZero.Nat

/-!
# Values laid out one behind the other

A map from offsets to values, where every value starts where the one before it ends.  Values without a size are left
out.  The entry before the upper bound of an offset is the value that the offset is in.
-/

namespace SweepDSEmu

variable {α : Type} (size : α → Nat)

def layOut : Nat → List α → OrderedMap Nat α
  | _, [] => []
  | start, a :: l => if size a = 0 then layOut start l else (start, a) :: layOut (start + size a) l

example : layOut id 3 [4, 0, 2] = [(3, 4), (7, 2)] := by simp [layOut]

def totalSize (l : List α) : Nat := (l.map size).sum

@[simp] theorem totalSize_nil : totalSize size [] = 0 := rfl

@[simp] theorem totalSize_cons (a : α) (l : List α) : totalSize size (a :: l) = size a + totalSize size l := by
  simp [totalSize]

theorem totalSize_append (l l' : List α) : totalSize size (l ++ l') = totalSize size l + totalSize size l' := by
  simp [totalSize]

variable {size}

theorem layOut_append (start : Nat) (l l' : List α) :
    layOut size start (l ++ l') = layOut size start l ++ layOut size (start + totalSize size l) l' := by
  induction l generalizing start with
  | nil => rfl
  | cons a l ih =>
    rw [List.cons_append, layOut, layOut, totalSize_cons]
    split
    case isTrue hzero => rw [ih, hzero, Nat.zero_add]
    case isFalse hpos => rw [ih, List.cons_append, Nat.add_assoc]

theorem mem_layOut {start : Nat} {l : List α} {p : Nat × α} (h : p ∈ layOut size start l) :
    start ≤ p.1 ∧ p.1 < start + totalSize size l := by
  induction l generalizing start with
  | nil => cases h
  | cons a l ih =>
    rw [layOut] at h
    rw [totalSize_cons]
    split at h
    case isTrue hzero =>
      have := ih h
      omega
    case isFalse hpos =>
      rcases List.mem_cons.mp h with rfl | h
      · omega
      · have := ih h
        omega

theorem layOut_sorted (start : Nat) (l : List α) : (layOut size start l).Sorted := by
  induction l generalizing start with
  | nil => exact List.Pairwise.nil
  | cons a l ih =>
    rw [layOut]
    split
    case isTrue => exact ih start
    case isFalse hpos =>
      refine List.pairwise_cons.mpr ⟨?_, ih _⟩
      intro p hp
      have := mem_layOut hp
      omega

theorem emplace_layOut (start : Nat) (l : List α) {a : α} (h : size a ≠ 0) :
    (layOut size start l).emplace (start + totalSize size l) a = layOut size start (l ++ [a]) := by
  have hsplit : OrderedMap.emplace (layOut size start l ++ []) (start + totalSize size l) a =
      layOut size start l ++ [(start + totalSize size l, a)] :=
    OrderedMap.emplace_split (fun p hp => (mem_layOut hp).2) (fun p hp => absurd hp List.not_mem_nil) a
  rw [List.append_nil] at hsplit
  rw [hsplit, layOut_append, layOut, if_neg h]
  rfl

theorem totalSize_of_layOut_eq_nil {start : Nat} {l : List α} (h : layOut size start l = []) :
    totalSize size l = 0 := by
  induction l generalizing start with
  | nil => rfl
  | cons a l ih =>
    rw [layOut] at h
    split at h
    case isTrue hzero => rw [totalSize_cons, hzero, ih h]
    case isFalse hpos => cases h

/-- A map that is not empty has an entry for every offset: the value that the offset is in, or the last one. -/
theorem exists_cursor {start offset : Nat} {l : List α} (hne : layOut size start l ≠ []) (hle : start ≤ offset) :
    ∃ l₁ a l₂, l = l₁ ++ a :: l₂ ∧ size a ≠ 0 ∧ start + totalSize size l₁ ≤ offset ∧
      (offset < start + totalSize size l₁ + size a ∨ totalSize size l₂ = 0) := by
  induction l generalizing start with
  | nil => exact absurd rfl hne
  | cons a l ih =>
    rw [layOut] at hne
    split at hne
    case isTrue hzero =>
      obtain ⟨l₁, b, l₂, rfl, hb, hstart, hend⟩ := ih hne hle
      refine ⟨a :: l₁, b, l₂, rfl, hb, ?_⟩
      rw [totalSize_cons, hzero, Nat.zero_add]
      exact ⟨hstart, hend⟩
    case isFalse hpos =>
      by_cases hlast : layOut size (start + size a) l = []
      · exact ⟨[], a, l, rfl, hpos, hle, .inr (totalSize_of_layOut_eq_nil hlast)⟩
      by_cases hhere : offset < start + size a
      · exact ⟨[], a, l, rfl, hpos, hle, .inl hhere⟩
      · obtain ⟨l₁, b, l₂, rfl, hb, hstart, hend⟩ := ih hlast (Nat.not_lt.mp hhere)
        refine ⟨a :: l₁, b, l₂, rfl, hb, ?_⟩
        rw [totalSize_cons, ← Nat.add_assoc]
        exact ⟨hstart, hend⟩

theorem prev_upperBound_layOut {start offset : Nat} {l : List α} (hne : layOut size start l ≠ [])
    (hle : start ≤ offset) :
    ∃ l₁ a l₂, l = l₁ ++ a :: l₂ ∧ size a ≠ 0 ∧ start + totalSize size l₁ ≤ offset ∧
      (offset < start + totalSize size l₁ + size a ∨ totalSize size l₂ = 0) ∧
      (layOut size start l).prev ((layOut size start l).upperBound offset) = some (start + totalSize size l₁) ∧
      (layOut size start l).dropWhile (fun p => p.1 < start + totalSize size l₁) =
        layOut size (start + totalSize size l₁) (a :: l₂) := by
  obtain ⟨l₁, a, l₂, rfl, ha, hstart, hend⟩ := exists_cursor hne hle
  refine ⟨l₁, a, l₂, rfl, ha, hstart, hend, ?_, ?_⟩
  · have hsorted : (layOut size start (l₁ ++ a :: l₂)).Sorted := layOut_sorted start _
    rw [layOut_append, layOut, if_neg ha] at hsorted ⊢
    refine OrderedMap.prev_upperBound_split hsorted hstart ?_
    intro p hp
    have := mem_layOut hp
    omega
  · rw [layOut_append, List.dropWhile_append_of_pos]
    · rw [layOut, if_neg ha, List.dropWhile_cons_of_neg (by simp)]
    · intro p hp
      simpa using (mem_layOut hp).2

end SweepDSEmu
