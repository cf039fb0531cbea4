import SweepDSEmu.Lib.Outcome

/-!
# Loops over the cells of a state

A state that consists of independent cells, and loops that visit each cell of a list once.  Such a loop returns
exactly when the step at every visited cell does, and a second loop undoes it exactly when it does so at every cell.
-/

namespace SweepDSEmu

/-- A state `σ` that consists of cells `ρ`, one for every index in `ι`. -/
structure Cells (σ ι ρ : Type) where
  get : σ → ι → ρ
  put : ι → ρ → σ → σ
  get_put_self : ∀ i r s, get (put i r s) i = r
  get_put_of_ne : ∀ {i j}, j ≠ i → ∀ r s, get (put i r s) j = get s j
  ext : ∀ {s s'}, (∀ i, get s i = get s' i) → s = s'

namespace Cells

variable {σ ι ρ ε : Type} (c : Cells σ ι ρ) {f g : ι → ρ → Except ε ρ} {l : List ι} {s s' : σ}

def turn (f : ι → ρ → Except ε ρ) (s : σ) (i : ι) : Except ε σ := do
  let r ← f i (c.get s i)
  .ok (c.put i r s)

theorem turn_eq_ok_iff {i : ι} : c.turn f s i = .ok s' ↔ ∃ r, f i (c.get s i) = .ok r ∧ c.put i r s = s' := by
  unfold turn
  constructor
  · intro h
    obtain ⟨r, hr, h⟩ := ok_of_bind h
    cases h
    exact ⟨r, hr, rfl⟩
  · rintro ⟨r, hr, rfl⟩
    rw [hr]
    rfl

theorem foldlM_eq_ok_iff (hl : l.Nodup) :
    l.foldlM (c.turn f) s = .ok s' ↔
      (∀ i ∈ l, f i (c.get s i) = .ok (c.get s' i)) ∧ ∀ i, i ∉ l → c.get s' i = c.get s i := by
  induction l generalizing s with
  | nil =>
    simp only [List.foldlM_nil, List.not_mem_nil, not_false_eq_true, forall_const, IsEmpty.forall_iff, implies_true,
      true_and]
    constructor
    · intro h i
      cases h
      rfl
    · intro h
      rw [c.ext h]
      rfl
  | cons i l ih =>
    rw [List.nodup_cons] at hl
    rw [List.foldlM_cons]
    constructor
    · intro h
      obtain ⟨s1, hs1, h⟩ := ok_of_bind h
      obtain ⟨r, hr, rfl⟩ := c.turn_eq_ok_iff.mp hs1
      obtain ⟨hin, hout⟩ := (ih hl.2).mp h
      refine ⟨?_, ?_⟩
      · intro j hj
        rcases List.mem_cons.mp hj with rfl | hj
        · rw [hout j hl.1, c.get_put_self]
          exact hr
        · have hne : j ≠ i := fun he => hl.1 (he ▸ hj)
          have hstep := hin j hj
          rw [c.get_put_of_ne hne] at hstep
          exact hstep
      · intro j hj
        rw [List.mem_cons, not_or] at hj
        rw [hout j hj.2, c.get_put_of_ne hj.1]
    · intro h
      have hturn : c.turn f s i = .ok (c.put i (c.get s' i) s) :=
        c.turn_eq_ok_iff.mpr ⟨_, h.1 i List.mem_cons_self, rfl⟩
      rw [hturn, ok_bind, ih hl.2]
      refine ⟨?_, ?_⟩
      · intro j hj
        have hne : j ≠ i := fun he => hl.1 (he ▸ hj)
        rw [c.get_put_of_ne hne]
        exact h.1 j (List.mem_cons_of_mem _ hj)
      · intro j hj
        by_cases hij : j = i
        · rw [hij, c.get_put_self]
        · rw [c.get_put_of_ne hij]
          exact h.2 j (by simp [hij, hj])

theorem exists_foldlM_eq_ok (hl : l.Nodup) (h : ∀ i ∈ l, ∃ r, f i (c.get s i) = .ok r) :
    ∃ s', l.foldlM (c.turn f) s = .ok s' := by
  induction l generalizing s with
  | nil => exact ⟨s, rfl⟩
  | cons i l ih =>
    rw [List.nodup_cons] at hl
    obtain ⟨r, hr⟩ := h i List.mem_cons_self
    have hturn : c.turn f s i = .ok (c.put i r s) := c.turn_eq_ok_iff.mpr ⟨r, hr, rfl⟩
    rw [List.foldlM_cons, hturn, ok_bind]
    apply ih hl.2
    intro j hj
    have hne : j ≠ i := fun he => hl.1 (he ▸ hj)
    rw [c.get_put_of_ne hne]
    exact h j (List.mem_cons_of_mem _ hj)

/-- A second loop undoes the first exactly when it does so at every cell. -/
theorem foldlM_undone_iff (hl : l.Nodup) :
    (∃ s', l.foldlM (c.turn f) s = .ok s' ∧ l.foldlM (c.turn g) s' = .ok s) ↔
      ∀ i ∈ l, ∃ r, f i (c.get s i) = .ok r ∧ g i r = .ok (c.get s i) := by
  constructor
  · rintro ⟨s', hf, hg⟩ i hi
    rw [c.foldlM_eq_ok_iff hl] at hf hg
    exact ⟨c.get s' i, hf.1 i hi, hg.1 i hi⟩
  · intro h
    obtain ⟨s', hf⟩ := c.exists_foldlM_eq_ok (s := s) hl fun i hi => (h i hi).imp fun r hr => hr.1
    have hf' := (c.foldlM_eq_ok_iff hl).mp hf
    refine ⟨s', hf, ?_⟩
    rw [c.foldlM_eq_ok_iff hl]
    refine ⟨?_, fun i hi => (hf'.2 i hi).symm⟩
    intro i hi
    obtain ⟨r, hr, hg⟩ := h i hi
    have hcell := hf'.1 i hi
    rw [hr] at hcell
    cases hcell
    exact hg

end Cells

end SweepDSEmu
