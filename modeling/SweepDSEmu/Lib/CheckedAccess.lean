import Mathlib.Algebra.Group.Nat.Defs
import Mathlib.Tactic.Common
import Mathlib.Algebra.Group.Int.Defs

/-!
# Accesses to an array that are checked

Reading and writing an element or a part of an array.  An access that leaves the array is the error `e`.
-/

namespace SweepDSEmu

variable {ε α : Type}

def checkedGet (e : ε) (l : List α) (i : Nat) : Except ε α :=
  match l[i]? with
  | some a => .ok a
  | none => .error e

/-- Reads `length` elements from `offset` on. -/
def checkedSlice (e : ε) (l : List α) (offset length : Nat) : Except ε (List α) :=
  if offset + length ≤ l.length then .ok ((l.drop offset).take length) else .error e

def checkedSet (e : ε) (l : List α) (i : Nat) (a : α) : Except ε (List α) :=
  if i < l.length then .ok (l.set i a) else .error e

def checkedSplice (e : ε) (l : List α) (offset : Nat) (part : List α) : Except ε (List α) :=
  if offset + part.length ≤ l.length then .ok (l.take offset ++ part ++ l.drop (offset + part.length)) else .error e

variable {e : ε} {l part : List α} {i offset length : Nat} {a : α}

theorem checkedGet_of_lt (h : i < l.length) : checkedGet e l i = .ok l[i] := by
  unfold checkedGet
  rw [List.getElem?_eq_getElem h]

theorem checkedGet_of_getElem? (h : l[i]? = some a) : checkedGet e l i = .ok a := by
  unfold checkedGet
  rw [h]

theorem checkedGet_of_le (h : l.length ≤ i) : checkedGet e l i = .error e := by
  unfold checkedGet
  rw [List.getElem?_eq_none h]

theorem checkedSlice_of_le (h : offset + length ≤ l.length) :
    checkedSlice e l offset length = .ok ((l.drop offset).take length) := if_pos h

theorem checkedSlice_of_lt (h : l.length < offset + length) : checkedSlice e l offset length = .error e :=
  if_neg (Nat.not_le.mpr h)

theorem checkedSlice_eq_ok_iff {part : List α} :
    checkedSlice e l offset length = .ok part ↔ offset + length ≤ l.length ∧ part = (l.drop offset).take length := by
  unfold checkedSlice
  split
  case isTrue h => simp [h, eq_comm]
  case isFalse h => simp [h]

theorem checkedSet_of_lt (h : i < l.length) : checkedSet e l i a = .ok (l.set i a) := if_pos h

theorem checkedSplice_of_le (h : offset + part.length ≤ l.length) :
    checkedSplice e l offset part = .ok (l.take offset ++ part ++ l.drop (offset + part.length)) := if_pos h

theorem checkedSplice_append {l₁ old l₂ : List α} (h : old.length = part.length) :
    checkedSplice e (l₁ ++ old ++ l₂) l₁.length part = .ok (l₁ ++ part ++ l₂) := by
  rw [checkedSplice_of_le (by simp [h])]
  congr 1
  have htake : (l₁ ++ old ++ l₂).take l₁.length = l₁ := by simp
  have hdrop : (l₁ ++ old ++ l₂).drop (l₁.length + part.length) = l₂ := by
    rw [← h, ← List.length_append, List.drop_left]
  rw [htake, hdrop]

theorem length_of_checkedSplice {l' : List α} (h : checkedSplice e l offset part = .ok l') : l'.length = l.length := by
  unfold checkedSplice at h
  split at h
  · cases h
    simp
    omega
  · cases h

end SweepDSEmu
