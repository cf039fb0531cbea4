import Mathlib.Algebra.Group.Nat.Defs
import Mathlib.Data.List.Basic

/-!
# Splitting at a delimiter

`splitString` is repeated `std::getline`: the pieces between the delimiters, without an empty piece at the end.  Where
empty pieces are dropped anyway, splitting commutes with cutting at a delimiter (`filter_splitString_append`).  Pieces
that are written with their delimiters are split into the same pieces (`splitString_flatMap_append`).
-/

namespace SweepDSEmu

variable {α : Type} [DecidableEq α]

def splitString (delim : α) : List α → List (List α)
  | [] => []
  | c :: cs =>
    if c = delim then [] :: splitString delim cs
    else
      match splitString delim cs with
      | [] => [[c]]
      | w :: ws => (c :: w) :: ws

example : splitString 0 [1, 0, 0, 2, 0] = [[1], [], [2]] := by simp [splitString]

variable {delim : α}

theorem splitString_cons_of_ne {c : α} (hc : c ≠ delim) (s : List α) :
    splitString delim (c :: s) = (c :: (splitString delim s).headD []) :: (splitString delim s).tail := by
  rw [splitString, if_neg hc]
  cases splitString delim s <;> rfl

theorem splitString_ne_nil {s : List α} (hs : s ≠ []) : splitString delim s ≠ [] := by
  cases s with
  | nil => exact absurd rfl hs
  | cons c s =>
    by_cases hc : c = delim
    · simp [splitString, hc]
    · simp [splitString_cons_of_ne hc]

private theorem splitString_concat (delim : α) (s : List α) :
    splitString delim (s ++ [delim]) = splitString delim s ∨
      splitString delim (s ++ [delim]) = splitString delim s ++ [[]] := by
  induction s with
  | nil => exact Or.inr (by simp [splitString])
  | cons c s ih =>
    by_cases hc : c = delim
    · subst hc
      rcases ih with h | h
      · exact Or.inl (by simp [splitString, h])
      · exact Or.inr (by simp [splitString, h])
    · rw [List.cons_append, splitString_cons_of_ne hc, splitString_cons_of_ne hc]
      have hne : splitString delim (s ++ [delim]) ≠ [] := splitString_ne_nil (by simp)
      rcases ih with h | h
      · exact Or.inl (by rw [h])
      · cases hs : splitString delim s with
        | nil => exact Or.inl (by simp [h, hs])
        | cons w ws => exact Or.inr (by simp [h, hs])

private theorem splitString_append (s t : List α) :
    splitString delim (s ++ delim :: t) = splitString delim (s ++ [delim]) ++ splitString delim t := by
  induction s with
  | nil => simp [splitString]
  | cons c s ih =>
    by_cases hc : c = delim
    · subst hc
      simp [splitString, ih]
    · rw [List.cons_append, List.cons_append, splitString_cons_of_ne hc, splitString_cons_of_ne hc, ih]
      have hne : splitString delim (s ++ [delim]) ≠ [] := splitString_ne_nil (by simp)
      cases hs : splitString delim (s ++ [delim]) with
      | nil => exact absurd hs hne
      | cons w ws => simp

theorem filter_splitString_append {p : List α → Bool} (hp : p [] = false) (s t : List α) :
    (splitString delim (s ++ delim :: t)).filter p = (splitString delim s).filter p ++ (splitString delim t).filter p := by
  rw [splitString_append, List.filter_append]
  rcases splitString_concat delim s with h | h
  · rw [h]
  · rw [h, List.filter_append]
    simp [hp]

theorem splitString_of_notMem {s : List α} (hs : delim ∉ s) (hne : s ≠ []) : splitString delim s = [s] := by
  induction s with
  | nil => exact absurd rfl hne
  | cons c s ih =>
    rw [List.mem_cons, not_or] at hs
    rw [splitString_cons_of_ne (Ne.symm hs.1)]
    cases s with
    | nil => simp [splitString]
    | cons d s => simp [ih hs.2 (by simp)]

/-- A piece is split off at its delimiter. -/
theorem splitString_piece {w : List α} (hw : delim ∉ w) (t : List α) :
    splitString delim (w ++ delim :: t) = w :: splitString delim t := by
  induction w with
  | nil => simp [splitString]
  | cons c w ih =>
    rw [List.mem_cons, not_or] at hw
    rw [List.cons_append, splitString_cons_of_ne (Ne.symm hw.1), ih hw.2]
    simp

theorem splitString_flatMap_append {pieces : List (List α)} (h : ∀ w ∈ pieces, delim ∉ w) :
    splitString delim (pieces.flatMap (· ++ [delim])) = pieces := by
  induction pieces with
  | nil => rfl
  | cons w pieces ih =>
    rw [List.forall_mem_cons] at h
    rw [List.flatMap_cons, List.append_assoc, List.singleton_append, splitString_piece h.1, ih h.2]

theorem notMem_of_mem_splitString {s w : List α} (hw : w ∈ splitString delim s) : delim ∉ w := by
  induction s generalizing w with
  | nil => simp [splitString] at hw
  | cons c s ih =>
    by_cases hc : c = delim
    · subst hc
      simp only [splitString, if_true, List.mem_cons] at hw
      rcases hw with rfl | hw
      · simp
      · exact ih hw
    · rw [splitString_cons_of_ne hc] at hw
      cases hs : splitString delim s with
      | nil =>
        simp only [hs, List.headD_nil, List.tail_nil, List.mem_singleton] at hw
        subst hw
        simpa using Ne.symm hc
      | cons v vs =>
        simp only [hs, List.headD_cons, List.tail_cons, List.mem_cons] at hw
        rcases hw with rfl | hw
        · rw [List.mem_cons, not_or]
          exact ⟨Ne.symm hc, ih (by simp [hs])⟩
        · exact ih (by simp [hs, hw])

theorem mem_of_mem_splitString {s w : List α} (hw : w ∈ splitString delim s) {c : α} (hc : c ∈ w) : c ∈ s := by
  induction s generalizing w with
  | nil => simp [splitString] at hw
  | cons d s ih =>
    by_cases hd : d = delim
    · subst hd
      simp only [splitString, if_true, List.mem_cons] at hw
      rcases hw with rfl | hw
      · simp at hc
      · exact List.mem_cons_of_mem _ (ih hw hc)
    · rw [splitString_cons_of_ne hd] at hw
      cases hs : splitString delim s with
      | nil =>
        simp only [hs, List.headD_nil, List.tail_nil, List.mem_singleton] at hw
        subst hw
        simp only [List.mem_singleton] at hc
        simp [hc]
      | cons v vs =>
        simp only [hs, List.headD_cons, List.tail_cons, List.mem_cons] at hw
        rcases hw with rfl | hw
        · rcases List.mem_cons.mp hc with rfl | hc
          · simp
          · exact List.mem_cons_of_mem _ (ih (by simp [hs]) hc)
        · exact List.mem_cons_of_mem _ (ih (by simp [hs, hw]) hc)

end SweepDSEmu
