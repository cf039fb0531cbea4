import SweepDSEmu.Lib.Outcome
import Mathlib.Data.Nat.Periodic

/-!
# Loops that overwrite

`overwrite` replaces a block of a memory.  `countedLoop` is the loop `for (i = start; i < stop; i += step)`; its rule
`countedLoop_outcome` carries an invariant from `start` to `loopEnd`, the first value of `i` that is not below `stop`.
-/

namespace SweepDSEmu

section

variable {α : Type*} {mem : Nat → α} {bytes : Nat → α} {base n k a : Nat}

/-- The memory with `n` values from `base` on replaced. -/
def overwrite (mem : Nat → α) (base n : Nat) (bytes : Nat → α) : Nat → α :=
  fun a => if base ≤ a ∧ a < base + n then bytes (a - base) else mem a

theorem overwrite_of_mem (hbase : base ≤ a) (ha : a < base + n) : overwrite mem base n bytes a = bytes (a - base) :=
  if_pos ⟨hbase, ha⟩

theorem overwrite_of_not_mem (h : ¬ (base ≤ a ∧ a < base + n)) : overwrite mem base n bytes a = mem a :=
  if_neg h

theorem overwrite_zero (mem : Nat → α) (base : Nat) (bytes : Nat → α) : overwrite mem base 0 bytes = mem := by
  funext a
  exact overwrite_of_not_mem (by omega)

theorem overwrite_self (mem : Nat → α) (base n : Nat) : overwrite mem base n (fun i => mem (base + i)) = mem := by
  funext a
  unfold overwrite
  by_cases ha : base ≤ a ∧ a < base + n
  · rw [if_pos ha]
    exact congrArg mem (Nat.add_sub_of_le ha.1)
  · rw [if_neg ha]

theorem update_overwrite (mem : Nat → α) (base n : Nat) (bytes : Nat → α) :
    Function.update (overwrite mem base n bytes) (base + n) (bytes n) = overwrite mem base (n + 1) bytes := by
  funext a
  by_cases ha : a = base + n
  · rw [ha, Function.update_self, overwrite_of_mem (by omega) (by omega), Nat.add_sub_cancel_left]
  · rw [Function.update_of_ne ha]
    unfold overwrite
    by_cases hblock : base ≤ a ∧ a < base + n
    · rw [if_pos hblock, if_pos (by omega)]
    · rw [if_neg hblock, if_neg (by omega)]

theorem overwrite_append (mem : Nat → α) (base n k : Nat) (bytes : Nat → α) :
    overwrite (overwrite mem base n bytes) (base + n) k (fun i => bytes (n + i)) = overwrite mem base (n + k) bytes := by
  funext a
  unfold overwrite
  by_cases hsecond : base + n ≤ a ∧ a < base + n + k
  · rw [if_pos hsecond, if_pos (by omega)]
    exact congrArg bytes (by omega)
  · rw [if_neg hsecond]
    by_cases hfirst : base ≤ a ∧ a < base + n
    · rw [if_pos hfirst, if_pos (by omega)]
    · rw [if_neg hfirst, if_neg (by omega)]

theorem overwrite_restore (mem : Nat → α) (base n k : Nat) (bytes : Nat → α) :
    overwrite (overwrite mem base n bytes) base k (fun i => mem (base + i)) =
      overwrite mem (base + k) (n - k) (fun i => bytes (k + i)) := by
  funext a
  unfold overwrite
  by_cases hrestored : base ≤ a ∧ a < base + k
  · rw [if_pos hrestored, if_neg (by omega)]
    exact congrArg mem (Nat.add_sub_of_le hrestored.1)
  · rw [if_neg hrestored]
    by_cases hblock : base ≤ a ∧ a < base + n
    · rw [if_pos hblock, if_pos (by omega)]
      exact congrArg bytes (by omega)
    · rw [if_neg hblock, if_neg (by omega)]

theorem overwrite_congr {bytes' : Nat → α} (h : ∀ i < n, bytes i = bytes' i) :
    overwrite mem base n bytes = overwrite mem base n bytes' := by
  funext a
  unfold overwrite
  by_cases ha : base ≤ a ∧ a < base + n
  · rw [if_pos ha, if_pos ha, h (a - base) (by omega)]
  · rw [if_neg ha, if_neg ha]

end

/-- A pattern that repeats after `n` values, and whose first `n` blocks of `b` values are the same, repeats after `b`
values. -/
theorem periodic_of_blocks {α : Type*} {pattern : Nat → α} {n b : Nat} (hn : 0 < n)
    (hpattern : Function.Periodic pattern n) (h : ∀ i < n, ∀ k < b, pattern (b * i + k) = pattern k) (hb : 0 < b) :
    Function.Periodic pattern b := by
  have hmod (j : Nat) : pattern j = pattern (j % b) := by
    have hq : j = b * n * (j / b / n) + (b * (j / b % n) + j % b) := by
      rw [← Nat.add_assoc, Nat.mul_assoc, ← Nat.mul_add, Nat.div_add_mod, Nat.div_add_mod]
    calc pattern j = pattern (j % n) := (hpattern.map_mod_nat j).symm
      _ = pattern ((b * (j / b % n) + j % b) % n) := by
        conv_lhs => rw [hq, Nat.mul_comm b n, Nat.mul_assoc, Nat.mul_add_mod]
      _ = pattern (b * (j / b % n) + j % b) := hpattern.map_mod_nat _
      _ = pattern (j % b) := h _ (Nat.mod_lt _ hn) _ (Nat.mod_lt _ hb)
  intro j
  rw [hmod (j + b), Nat.add_mod_right, ← hmod j]

section

variable {σ ε : Type} {E : ε → Prop} {start stop step : Nat} {body : σ → Nat → Except ε σ} {s : σ}

def loopTurns (start stop step : Nat) : Nat := (stop - start + step - 1) / step

def loopEnd (start stop step : Nat) : Nat := start + step * loopTurns start stop step

/-- `for (i = start; i < stop; i += step)`, for a positive step. -/
def countedLoop (start stop step : Nat) (body : σ → Nat → Except ε σ) (s : σ) : Except ε σ :=
  (List.range' start (loopTurns start stop step) step).foldlM body s

theorem le_loopEnd (hstep : 0 < step) : stop ≤ loopEnd start stop step := by
  unfold loopEnd loopTurns
  have hdiv := Nat.div_add_mod (stop - start + step - 1) step
  have hmod := Nat.mod_lt (stop - start + step - 1) hstep
  omega

theorem le_loopTurns (hstep : 0 < step) {k : Nat} (h : start + step * k < stop) : k < loopTurns start stop step := by
  unfold loopTurns
  rw [Nat.lt_div_iff_mul_lt hstep, Nat.mul_comm]
  omega

theorem loopTurns_add_mul (hstep : 0 < step) (start n : Nat) : loopTurns start (start + step * n) step = n := by
  unfold loopTurns
  rw [Nat.add_sub_cancel_left, Nat.add_sub_assoc hstep, Nat.mul_add_div hstep, Nat.div_eq_of_lt (by omega), Nat.add_zero]

theorem loopTurns_of_dvd (hstep : 0 < step) (h : step ∣ stop) : step * loopTurns 0 stop step = stop := by
  obtain ⟨c, rfl⟩ := h
  have hturns := loopTurns_add_mul hstep 0 c
  rw [Nat.zero_add] at hturns
  rw [hturns]

/-- What a turn carries from the counter to the next value of it, the loop carries to its end. -/
theorem countedLoop_outcome (Inv : Nat → σ → Prop) (hstep : 0 < step) (hs : Inv start s)
    (hbody : ∀ k t, start + step * k < stop → Inv (start + step * k) t →
      Outcome E (Inv (start + step * (k + 1))) (body t (start + step * k))) :
    Outcome E (Inv (loopEnd start stop step)) (countedLoop start stop step body s) := by
  unfold countedLoop loopEnd
  have hturns : ∀ k < loopTurns start stop step, start + step * k < stop := by
    intro k hk
    have hle : step * (k + 1) ≤ step * loopTurns start stop step := Nat.mul_le_mul_left step hk
    have hdiv := Nat.div_add_mod (stop - start + step - 1) step
    unfold loopTurns at hle
    rw [Nat.mul_add, Nat.mul_one] at hle
    omega
  generalize loopTurns start stop step = turns at hturns
  induction turns with
  | zero => exact hs
  | succ turns ih =>
    rw [List.range'_concat, List.foldlM_append]
    refine (ih fun k hk => hturns k (by omega)).bind ?_
    intro t ht
    refine (hbody turns t (hturns turns (Nat.lt_succ_self turns)) ht).bind ?_
    intro u hu
    exact hu

theorem foldlM_settles {κ : Type*} {f : σ → κ → Except ε σ} {l : List κ} (Inv : σ → Prop) (Done : κ → σ → Prop)
    (hs : Inv s) (hstep : ∀ t, ∀ k ∈ l, Inv t →
      ∃ u, f t k = .ok u ∧ Inv u ∧ Done k u ∧ ∀ k' ∈ l, Done k' t → Done k' u) :
    ∃ t, l.foldlM f s = .ok t ∧ Inv t ∧ ∀ k ∈ l, Done k t := by
  suffices h : ∀ done rest, l = done ++ rest → ∀ s, Inv s → (∀ k ∈ done, Done k s) →
      ∃ t, rest.foldlM f s = .ok t ∧ Inv t ∧ ∀ k ∈ l, Done k t from
    h [] l rfl s hs (fun _ hk => absurd hk List.not_mem_nil)
  intro done rest
  induction rest generalizing done with
  | nil =>
    rintro hl s hs hdone
    rw [List.append_nil] at hl
    exact ⟨s, rfl, hs, hl ▸ hdone⟩
  | cons k rest ih =>
    rintro hl s hs hdone
    have hmem {k' : κ} (hk' : k' ∈ done ++ k :: rest) : k' ∈ l := hl ▸ hk'
    obtain ⟨u, hu, hinv, hk, hkeeps⟩ := hstep s k (hmem (by simp)) hs
    rw [List.foldlM_cons, hu, ok_bind]
    refine ih (done ++ [k]) (by rw [hl, List.append_assoc]; rfl) u hinv ?_
    intro k' hk'
    rcases List.mem_append.mp hk' with hk' | hk'
    · exact hkeeps k' (hmem (List.mem_append_left _ hk')) (hdone k' hk')
    · rw [List.mem_singleton.mp hk']
      exact hk

/-- A loop over a list that fills, with each element, the cell at its place: the cells at no place are left alone. -/
theorem foldlM_scatter {κ ι α : Type*} {f : σ → κ → Except ε σ} {l : List κ} (get : σ → ι → α) (Inv : σ → Prop)
    (place : κ → ι) (value : κ → α) (hplace : ∀ k ∈ l, ∀ k' ∈ l, place k = place k' → value k = value k')
    (hs : Inv s) (hstep : ∀ t, ∀ k ∈ l, Inv t →
      ∃ u, f t k = .ok u ∧ Inv u ∧ get u (place k) = value k ∧ ∀ i, i ≠ place k → get u i = get t i) :
    ∃ t, l.foldlM f s = .ok t ∧ Inv t ∧ (∀ k ∈ l, get t (place k) = value k) ∧
      ∀ i, (∀ k ∈ l, i ≠ place k) → get t i = get s i := by
  have hturn : ∀ t, ∀ k ∈ l, (Inv t ∧ ∀ i, (∀ k ∈ l, i ≠ place k) → get t i = get s i) →
      ∃ u, f t k = .ok u ∧ (Inv u ∧ ∀ i, (∀ k ∈ l, i ≠ place k) → get u i = get s i) ∧ get u (place k) = value k ∧
        ∀ k' ∈ l, get t (place k') = value k' → get u (place k') = value k' := by
    rintro t k hk ⟨hinv, hrest⟩
    obtain ⟨u, hu, hinv', hfilled, hkeeps⟩ := hstep t k hk hinv
    refine ⟨u, hu, ⟨hinv', fun i hi => (hkeeps i (hi k hk)).trans (hrest i hi)⟩, hfilled, ?_⟩
    intro k' hk' hdone
    by_cases hsame : place k' = place k
    · rw [hsame, hfilled]
      exact hplace k hk k' hk' hsame.symm
    · rw [hkeeps _ hsame, hdone]
  obtain ⟨t, hrun, ⟨hinv, hrest⟩, hfilled⟩ := foldlM_settles
    (fun t => Inv t ∧ ∀ i, (∀ k ∈ l, i ≠ place k) → get t i = get s i) (fun k t => get t (place k) = value k)
    ⟨hs, fun _ _ => rfl⟩ hturn
  exact ⟨t, hrun, hinv, hfilled, hrest⟩

theorem countedLoop_of_le (hstep : 0 < step) (h : stop ≤ start) : countedLoop start stop step body s = .ok s := by
  have hturns : loopTurns start stop step = 0 := Nat.div_eq_of_lt (by omega)
  unfold countedLoop
  rw [hturns]
  rfl

end

end SweepDSEmu
