import Mathlib.Data.List.Basic

/-!
# Two lists around a tag

`A ++ tag t :: F` does not say where the tag stands.  `taggedJoin_eq_iff` finds all the ways to read it: an element of `F`
or of `A` that is a tag too can be the place.
-/

namespace SweepDSEmu

variable {α τ : Type}

/-- The lists `A` and `F` around the tag of `t`. -/
def taggedJoin (tag : τ → α) (A : List α) (t : τ) (F : List α) : List α := A ++ tag t :: F

variable {tag : τ → α} {A F A' F' : List α} {t t' : τ}

private theorem exists_append_cons_iff {l : List α} {x : α} {P : List α → List α → Prop} :
    (∃ l₁ l₂, l = l₁ ++ x :: l₂ ∧ P l₁ l₂) ↔ ∃ i, l[i]? = some x ∧ P (l.take i) (l.drop (i + 1)) := by
  constructor
  · rintro ⟨l₁, l₂, rfl, hP⟩
    refine ⟨l₁.length, by simp, ?_⟩
    have htake : (l₁ ++ x :: l₂).take l₁.length = l₁ := by simp
    have hdrop : (l₁ ++ x :: l₂).drop (l₁.length + 1) = l₂ := by
      simp
    rwa [htake, hdrop]
  · rintro ⟨i, hi, hP⟩
    obtain ⟨hlt, hx⟩ := List.getElem?_eq_some_iff.mp hi
    refine ⟨l.take i, l.drop (i + 1), ?_, hP⟩
    rw [← hx, List.getElem_cons_drop, List.take_append_drop]

private theorem append_cons_eq_iff {s s' : α} :
    A ++ s :: F = A' ++ s' :: F' ↔
      (A = A' ∧ s = s' ∧ F = F') ∨ (∃ M, F = M ++ s' :: F' ∧ A' = A ++ s :: M) ∨
        (∃ M, A = A' ++ s' :: M ∧ F' = M ++ s :: F) := by
  constructor
  · intro h
    rcases List.append_eq_append_iff.mp h with ⟨M, hA', hF⟩ | ⟨M, hA, hF'⟩
    · cases M with
      | nil =>
        rw [List.append_nil] at hA'
        rw [List.nil_append, List.cons.injEq] at hF
        exact .inl ⟨hA'.symm, hF.1, hF.2⟩
      | cons x M =>
        rw [List.cons_append, List.cons.injEq] at hF
        exact .inr (.inl ⟨M, hF.2, by rw [hF.1, hA']⟩)
    · cases M with
      | nil =>
        rw [List.append_nil] at hA
        rw [List.nil_append, List.cons.injEq] at hF'
        exact .inl ⟨hA, hF'.1.symm, hF'.2.symm⟩
      | cons x M =>
        rw [List.cons_append, List.cons.injEq] at hF'
        exact .inr (.inr ⟨M, by rw [hF'.1, hA], hF'.2⟩)
  · intro h
    rcases h with ⟨rfl, rfl, rfl⟩ | ⟨M, rfl, rfl⟩ | ⟨M, rfl, rfl⟩
    · rfl
    · simp
    · simp

theorem taggedJoin_eq_iff (htag : Function.Injective tag) :
    taggedJoin tag A t F = taggedJoin tag A' t' F' ↔
      (A = A' ∧ t = t' ∧ F = F') ∨
      (∃ i, F[i]? = some (tag t') ∧ A' = A ++ tag t :: F.take i ∧ F' = F.drop (i + 1)) ∨
      (∃ i, A[i]? = some (tag t') ∧ A' = A.take i ∧ F' = A.drop (i + 1) ++ tag t :: F) := by
  have hF : (∃ M, F = M ++ tag t' :: F' ∧ A' = A ++ tag t :: M) ↔
      ∃ i, F[i]? = some (tag t') ∧ A' = A ++ tag t :: F.take i ∧ F' = F.drop (i + 1) := by
    rw [← exists_append_cons_iff (P := fun M R => A' = A ++ tag t :: M ∧ F' = R)]
    grind
  have hA : (∃ M, A = A' ++ tag t' :: M ∧ F' = M ++ tag t :: F) ↔
      ∃ i, A[i]? = some (tag t') ∧ A' = A.take i ∧ F' = A.drop (i + 1) ++ tag t :: F := by
    rw [← exists_append_cons_iff (P := fun R M => A' = R ∧ F' = M ++ tag t :: F)]
    grind
  rw [taggedJoin, taggedJoin, append_cons_eq_iff, hF, hA, htag.eq_iff]

end SweepDSEmu
