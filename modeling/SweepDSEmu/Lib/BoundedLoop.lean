import Mathlib.Logic.Relation
import SweepDSEmu.Lib.Outcome

/-!
# Loops with a bound on their turns

A loop whose turns can fail, with a bound on the number of turns.  If every turn lowers a rank of the state, the loop
does not meet a bound that the rank of the first state does not exceed: it ends as the turns from the first state on
decide.
-/

namespace SweepDSEmu

namespace BoundedLoop

variable {σ ε : Type} (finished : σ → Bool) (turn : σ → Except ε σ) (exhausted : ε)

def run : Nat → σ → Except ε σ
  | 0, s => if finished s then .ok s else .error exhausted
  | bound + 1, s =>
    if finished s then .ok s
    else do
      let s ← turn s
      run bound s

/-- A turn of the loop that leads to another state. -/
def Turn (s t : σ) : Prop := finished s = false ∧ turn s = .ok t

def Reaches : σ → σ → Prop := Relation.ReflTransGen (Turn finished turn)

def Ranked (Inv : σ → Prop) (rank : σ → Nat) : Prop :=
  ∀ s, Inv s → finished s = false → Returns (fun t => Inv t ∧ rank t < rank s) (turn s)

variable {finished turn exhausted} {Inv : σ → Prop} {rank : σ → Nat} {bound : Nat} {s t : σ}

theorem run_of_finished (h : finished s = true) : run finished turn exhausted bound s = .ok s := by
  cases bound with
  | zero => exact if_pos h
  | succ bound => exact if_pos h

theorem run_succ (h : finished s = false) :
    run finished turn exhausted (bound + 1) s = turn s >>= run finished turn exhausted bound :=
  if_neg (Bool.eq_false_iff.mp h)

theorem Ranked.step (h : Ranked finished turn Inv rank) (hs : Inv s) (hturn : Turn finished turn s t) :
    Inv t ∧ rank t < rank s := by
  have houtcome := h s hs hturn.1
  rw [hturn.2] at houtcome
  exact houtcome

variable (exhausted) in
/-- The loop returns a reached state in which it is finished, or it fails as a reached state does. -/
theorem run_outcome (h : Ranked finished turn Inv rank) (hs : Inv s) (hbound : rank s < bound) :
    Outcome (fun fault => ∃ t, Reaches finished turn s t ∧ Inv t ∧ finished t = false ∧ turn t = .error fault)
      (fun t => Inv t ∧ finished t = true) (run finished turn exhausted bound s) := by
  induction bound generalizing s with
  | zero => omega
  | succ bound ih =>
    cases hfinished : finished s with
    | true =>
      rw [run_of_finished hfinished]
      exact ⟨hs, hfinished⟩
    | false =>
      rw [run_succ hfinished]
      cases hturn : turn s with
      | error fault => exact ⟨s, .refl, hs, hfinished, hturn⟩
      | ok t =>
        obtain ⟨ht, hlt⟩ := h.step hs ⟨hfinished, hturn⟩
        refine (ih ht (by omega)).weaken ?_
        rintro fault ⟨u, hu, hrest⟩
        exact ⟨u, .head ⟨hfinished, hturn⟩ hu, hrest⟩

theorem run_of_reaches (h : Ranked finished turn Inv rank) (hs : Inv s) (hbound : rank s < bound)
    (hreaches : Reaches finished turn s t) (hfinished : finished t = false) {fault : ε}
    (hfault : turn t = .error fault) : run finished turn exhausted bound s = .error fault := by
  induction hreaches using Relation.ReflTransGen.head_induction_on generalizing bound with
  | refl =>
    obtain ⟨bound, rfl⟩ := Nat.exists_eq_add_one_of_ne_zero (show bound ≠ 0 by omega)
    rw [run_succ hfinished, hfault]
    rfl
  | head hturn _ ih =>
    obtain ⟨ht, hlt⟩ := h.step hs hturn
    obtain ⟨bound, rfl⟩ := Nat.exists_eq_add_one_of_ne_zero (show bound ≠ 0 by omega)
    rw [run_succ hturn.1, hturn.2]
    exact ih ht (by omega)

theorem run_error {fault : ε} (h : run finished turn exhausted bound s = .error fault) :
    fault = exhausted ∨ ∃ t, Reaches finished turn s t ∧ finished t = false ∧ turn t = .error fault := by
  induction bound generalizing s with
  | zero =>
    unfold run at h
    split at h
    · cases h
    · cases h
      exact .inl rfl
  | succ bound ih =>
    cases hfinished : finished s with
    | true =>
      rw [run_of_finished hfinished] at h
      cases h
    | false =>
      rw [run_succ hfinished] at h
      cases hturn : turn s with
      | error e =>
        rw [hturn] at h
        cases h
        exact .inr ⟨s, .refl, hfinished, hturn⟩
      | ok t =>
        rw [hturn] at h
        rcases ih h with hexhausted | ⟨u, hreaches, hrest⟩
        · exact .inl hexhausted
        · exact .inr ⟨u, .head ⟨hfinished, hturn⟩ hreaches, hrest⟩

theorem run_mono (h : run finished turn exhausted bound s ≠ .error exhausted) {bound' : Nat} (hle : bound ≤ bound') :
    run finished turn exhausted bound' s = run finished turn exhausted bound s := by
  induction bound generalizing s bound' with
  | zero =>
    cases hfinished : finished s with
    | true => rw [run_of_finished hfinished, run_of_finished hfinished]
    | false =>
      rw [run, if_neg (by simp [hfinished])] at h
      exact absurd rfl h
  | succ bound ih =>
    obtain ⟨bound', rfl⟩ := Nat.exists_eq_add_one_of_ne_zero (show bound' ≠ 0 by omega)
    cases hfinished : finished s with
    | true => rw [run_of_finished hfinished, run_of_finished hfinished]
    | false =>
      rw [run_succ hfinished] at h ⊢
      rw [run_succ hfinished]
      cases hturn : turn s with
      | error e => rfl
      | ok t =>
        rw [hturn] at h
        exact ih h (by omega)

theorem run_keeps (Inv : σ → Prop) (hturn : ∀ s t, Inv s → turn s = .ok t → Inv t) (hs : Inv s)
    (h : run finished turn exhausted bound s = .ok t) : Inv t := by
  induction bound generalizing s with
  | zero =>
    unfold run at h
    split at h
    · cases h
      exact hs
    · cases h
  | succ bound ih =>
    unfold run at h
    split at h
    · cases h
      exact hs
    · obtain ⟨u, hu, h⟩ := ok_of_bind h
      exact ih (hturn s u hs hu) h

/-- A loop whose turns do not leave a set of states in which it is not finished. -/
theorem run_endless (Stuck : σ → Prop) (hstuck : ∀ s, Stuck s → finished s = false ∧ ∃ t, turn s = .ok t ∧ Stuck t)
    (hs : Stuck s) (bound : Nat) : run finished turn exhausted bound s = .error exhausted := by
  induction bound generalizing s with
  | zero => exact if_neg (by simp [(hstuck s hs).1])
  | succ bound ih =>
    obtain ⟨hfinished, t, hturn, ht⟩ := hstuck s hs
    rw [run_succ hfinished, hturn]
    exact ih ht

variable (Inv) in
theorem run_ends {α : Type} {r : α → α → Prop} (hwf : WellFounded r) (rank : σ → α)
    (hturn : ∀ s t, Inv s → finished s = false → turn s = .ok t → Inv t ∧ r (rank t) (rank s))
    (hfault : ∀ s, Inv s → turn s ≠ .error exhausted) (hs : Inv s) :
    ∃ bound, run finished turn exhausted bound s ≠ .error exhausted := by
  induction hrank : rank s using hwf.induction generalizing s with
  | _ a ih =>
    subst hrank
    cases hfinished : finished s with
    | true => exact ⟨0, by rw [run_of_finished hfinished]; nofun⟩
    | false =>
      cases hnext : turn s with
      | error fault =>
        refine ⟨1, ?_⟩
        rw [run_succ hfinished, hnext]
        exact fun h => hfault s hs (hnext.trans h)
      | ok t =>
        obtain ⟨ht, hlt⟩ := hturn s t hs hfinished hnext
        obtain ⟨bound, hends⟩ := ih (rank t) hlt ht rfl
        refine ⟨bound + 1, ?_⟩
        rw [run_succ hfinished, hnext]
        exact hends

theorem ends_of_reaches (hreaches : Reaches finished turn s t)
    (h : ∃ bound, run finished turn exhausted bound t ≠ .error exhausted) :
    ∃ bound, run finished turn exhausted bound s ≠ .error exhausted := by
  induction hreaches using Relation.ReflTransGen.head_induction_on with
  | refl => exact h
  | head hturn _ ih =>
    obtain ⟨bound, hends⟩ := ih
    refine ⟨bound + 1, ?_⟩
    rw [run_succ hturn.1, hturn.2]
    exact hends

theorem exists_fault (hreaches : Reaches finished turn s t) (hfinished : finished t = false) {fault : ε}
    (hfault : turn t = .error fault) : ∃ bound, run finished turn exhausted bound s = .error fault := by
  induction hreaches using Relation.ReflTransGen.head_induction_on with
  | refl =>
    refine ⟨1, ?_⟩
    rw [run_succ hfinished, hfault]
    rfl
  | head hturn _ ih =>
    obtain ⟨bound, hrun⟩ := ih
    refine ⟨bound + 1, ?_⟩
    rw [run_succ hturn.1, hturn.2]
    exact hrun

theorem exists_last (h : run finished turn exhausted bound s ≠ .error exhausted) :
    ∃ t, Reaches finished turn s t ∧ ∀ u, ¬ Turn finished turn t u := by
  induction bound generalizing s with
  | zero =>
    cases hfinished : finished s with
    | true => exact ⟨s, .refl, fun u hu => Bool.false_ne_true (hu.1.symm.trans hfinished)⟩
    | false =>
      rw [run, if_neg (by simp [hfinished])] at h
      exact absurd rfl h
  | succ bound ih =>
    cases hfinished : finished s with
    | true => exact ⟨s, .refl, fun u hu => Bool.false_ne_true (hu.1.symm.trans hfinished)⟩
    | false =>
      rw [run_succ hfinished] at h
      cases hturn : turn s with
      | error fault => exact ⟨s, .refl, fun u hu => nomatch hturn.symm.trans hu.2⟩
      | ok t =>
        rw [hturn] at h
        obtain ⟨u, hu, hlast⟩ := ih h
        exact ⟨u, .head ⟨hfinished, hturn⟩ hu, hlast⟩

end BoundedLoop

def EndsWith {ε α : Type} (exhausted : ε) (f : Nat → Except ε α) : Prop :=
  ∃ bound, f bound ≠ .error exhausted ∧ ∀ bound' ≥ bound, f bound' = f bound

namespace EndsWith

variable {σ ε α β : Type} {exhausted : ε} {f : Nat → Except ε α} {g : Nat → α → Except ε β}

theorem of_const {r : Except ε α} (h : r ≠ .error exhausted) : EndsWith exhausted fun _ => r := ⟨0, h, fun _ _ => rfl⟩

theorem loop {finished : σ → Bool} {turn : σ → Except ε σ} {s : σ}
    (h : ∃ bound, BoundedLoop.run finished turn exhausted bound s ≠ .error exhausted) :
    EndsWith exhausted fun bound => BoundedLoop.run finished turn exhausted bound s := by
  obtain ⟨bound, hends⟩ := h
  exact ⟨bound, hends, fun _ hle => BoundedLoop.run_mono hends hle⟩

theorem bind (hf : EndsWith exhausted f) (hg : ∀ bound a, f bound = .ok a → EndsWith exhausted fun bound => g bound a) :
    EndsWith exhausted fun bound => f bound >>= g bound := by
  obtain ⟨bound, hends, hsame⟩ := hf
  cases hvalue : f bound with
  | error e =>
    refine ⟨bound, ?_, ?_⟩
    · dsimp only
      rw [hvalue] at hends ⊢
      exact fun h => hends (by cases h; rfl)
    · intro bound' hle
      dsimp only
      rw [hsame bound' hle, hvalue]
      rfl
  | ok a =>
    obtain ⟨bound₂, hends₂, hsame₂⟩ := hg bound a hvalue
    have hmax (bound' : Nat) (hle : max bound bound₂ ≤ bound') : f bound' >>= g bound' = g bound₂ a := by
      rw [hsame bound' (by omega), hvalue, ok_bind]
      exact hsame₂ bound' (by omega)
    refine ⟨max bound bound₂, ?_, ?_⟩
    · dsimp only
      rw [hmax _ (Nat.le_refl _)]
      exact hends₂
    · intro bound' hle
      dsimp only
      rw [hmax bound' hle, hmax _ (Nat.le_refl _)]

theorem map (hf : EndsWith exhausted f) (k : α → β) : EndsWith exhausted fun bound => (f bound).map k := by
  have hbind : (fun bound => (f bound).map k) = fun bound => f bound >>= fun a => .ok (k a) := by
    funext bound
    cases f bound <;> rfl
  exact hf.bind fun _ _ _ => .of_const nofun

end EndsWith

end SweepDSEmu
