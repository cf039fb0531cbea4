import Mathlib.Data.List.Range

/-!
# Runs that put out one value at each position

A machine that reads position after position, keeps a state and puts out one value at each position, or fails.  Its
runs compose, and where the machine is exact (it does what a total machine does, or it fails) so are its runs.
-/

namespace SweepDSEmu.Transducer

variable {σ β : Type}

/-- The values of `count` positions from `j` on, and the state behind them. -/
def run (step : Nat → σ → Option (β × σ)) : Nat → Nat → σ → Option (List β × σ)
  | 0, _, s => some ([], s)
  | count + 1, j, s => do
    let (b, s) ← step j s
    let (bs, s) ← run step count (j + 1) s
    some (b :: bs, s)

/-- The state of a total machine before a position. -/
def stateAt (next : Nat → σ → σ) (s : σ) : Nat → σ
  | 0 => s
  | j + 1 => next j (stateAt next s j)

variable {step step' : Nat → σ → Option (β × σ)}

theorem run_zero (j : Nat) (s : σ) : run step 0 j s = some ([], s) := rfl

theorem run_succ (count j : Nat) (s : σ) :
    run step (count + 1) j s =
      (step j s).bind fun r => (run step count (j + 1) r.2).bind fun r' => some (r.1 :: r'.1, r'.2) := rfl

theorem run_add (a b j : Nat) (s : σ) :
    run step (a + b) j s =
      (run step a j s).bind fun r => (run step b (j + a) r.2).bind fun r' => some (r.1 ++ r'.1, r'.2) := by
  induction a generalizing j s with
  | zero =>
    rw [Nat.zero_add, run_zero, Option.bind_some, Nat.add_zero]
    cases run step b j s <;> rfl
  | succ a ih =>
    rw [Nat.add_right_comm, run_succ, run_succ]
    cases step j s with
    | none => rfl
    | some r =>
      rw [Option.bind_some, Option.bind_some, ih, show j + (a + 1) = j + 1 + a by omega]
      cases run step a (j + 1) r.2 with
      | none => rfl
      | some r' =>
        simp only [Option.bind_some]
        cases run step b (j + 1 + a) r'.2 <;> rfl

theorem run_congr {count j j' : Nat} (h : ∀ i < count, ∀ s, step (j + i) s = step' (j' + i) s) (s : σ) :
    run step count j s = run step' count j' s := by
  induction count generalizing j j' s with
  | zero => rfl
  | succ count ih =>
    have hfirst := h 0 (Nat.succ_pos count) s
    rw [Nat.add_zero, Nat.add_zero] at hfirst
    rw [run_succ, run_succ, hfirst]
    cases step' j' s with
    | none => rfl
    | some r =>
      rw [Option.bind_some, Option.bind_some, ih]
      intro i hi s
      rw [Nat.add_assoc, Nat.add_assoc, Nat.add_comm 1 i]
      exact h (i + 1) (by omega) s

theorem length_of_run {count j : Nat} {s : σ} {r : List β × σ} (hrun : run step count j s = some r) :
    r.1.length = count := by
  induction count generalizing j s r with
  | zero =>
    cases hrun
    rfl
  | succ count ih =>
    obtain ⟨r₁, -, hrun⟩ := Option.bind_eq_some_iff.mp hrun
    obtain ⟨r₂, hrest, hrun⟩ := Option.bind_eq_some_iff.mp hrun
    cases hrun
    exact congrArg Nat.succ (ih hrest)

section Exact

variable {P : σ → Prop} {fits : Nat → σ → Prop} {next : Nat → σ → σ} {out : σ → β}

/-- A machine that puts out the value of the next state, unless it fails. -/
structure Exact (step : Nat → σ → Option (β × σ)) (P : σ → Prop) (fits : Nat → σ → Prop) (next : Nat → σ → σ)
    (out : σ → β) : Prop where
  ok : ∀ j s, P s → fits j s → step j s = some (out (next j s), next j s)
  fails : ∀ j s, P s → ¬ fits j s → step j s = none
  keeps : ∀ j s, P s → P (next j s)

theorem Exact.stateAt (h : Exact step P fits next out) {s : σ} (hs : P s) (j : Nat) : P (stateAt next s j) := by
  induction j with
  | zero => exact hs
  | succ j ih => exact h.keeps j _ ih

theorem Exact.run_keeps (h : Exact step P fits next out) {s : σ} (hs : P s) {count j : Nat} {r : List β × σ}
    (hrun : run step count j s = some r) : P r.2 := by
  induction count generalizing j s r with
  | zero =>
    cases hrun
    exact hs
  | succ count ih =>
    obtain ⟨r₁, hfirst, hrun⟩ := Option.bind_eq_some_iff.mp hrun
    obtain ⟨r₂, hrest, hrun⟩ := Option.bind_eq_some_iff.mp hrun
    cases hrun
    have hfits : fits j s := by
      by_contra hnot
      rw [h.fails j s hs hnot] at hfirst
      cases hfirst
    rw [h.ok j s hs hfits] at hfirst
    cases hfirst
    exact ih (r := r₂) (h.keeps j s hs) hrest

/-- A run that does not fail puts out the values of the total machine. -/
theorem Exact.run (h : Exact step P fits next out) {s : σ} (hs : P s) {count : Nat}
    (hfits : ∀ j < count, fits j (Transducer.stateAt next s j)) :
    run step count 0 s =
      some ((List.range count).map fun j => out (Transducer.stateAt next s (j + 1)),
        Transducer.stateAt next s count) := by
  induction count with
  | zero => rfl
  | succ count ih =>
    rw [run_add, ih fun j hj => hfits j (by omega), Option.bind_some, run_succ, Nat.zero_add,
      h.ok count _ (h.stateAt hs count) (hfits count (Nat.lt_succ_self count)), Option.bind_some, run_zero,
      Option.bind_some, Option.bind_some, List.range_succ, List.map_append]
    rfl

/-- A run fails at a position where the total machine does not fit. -/
theorem Exact.run_eq_none (h : Exact step P fits next out) {s : σ} (hs : P s) {count : Nat}
    (hfits : ∃ j < count, ¬ fits j (Transducer.stateAt next s j)) : Transducer.run step count 0 s = none := by
  induction count with
  | zero =>
    obtain ⟨j, hj, -⟩ := hfits
    exact absurd hj (Nat.not_lt_zero j)
  | succ count ih =>
    by_cases hbefore : ∃ j < count, ¬ fits j (Transducer.stateAt next s j)
    · rw [run_add, ih hbefore]
      rfl
    · obtain ⟨j, hj, hnot⟩ := hfits
      have hlast : j = count := by
        by_contra hne
        exact hbefore ⟨j, by omega, hnot⟩
      subst hlast
      push Not at hbefore
      rw [run_add, h.run hs hbefore, Option.bind_some, run_succ, Nat.zero_add, h.fails j _ (h.stateAt hs j) hnot]
      rfl

end Exact

end SweepDSEmu.Transducer
