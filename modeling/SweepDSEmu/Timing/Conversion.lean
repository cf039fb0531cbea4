import Mathlib.Tactic.Linarith
import Mathlib.Tactic.FieldSimp
import SweepDSEmu.Timing.KernelTimer

/-!
# Time conversion

`usToCycles` and `nsToCycles` of `core_timing.h`.  Up to `MAX_VALUE_TO_MULTIPLY` the conversion is exact but for the
last division, above it the time is first rounded down to whole seconds, and a time whose whole seconds are above
`MAX_VALUE_TO_MULTIPLY` gives the largest value.

Rounding starts in the middle of a second, so the conversion steps back there.  `StepsBack` says between which times,
and `toCycles_le_iff` says that it is monotone everywhere else.
-/

namespace SweepDSEmu

/-- The body of the conversions of a signed time, for a number of units in a second. -/
def toCycles (perSecond t : Int) : Int :=
  if t.tdiv perSecond > maxValueToMultiply then 2 ^ 63 - 1
  else if t > maxValueToMultiply then baseClockRateArm11 * t.tdiv perSecond
  else baseClockRateArm11 * t % 2 ^ 64 / perSecond

def usPerSecond : Int := 1000000

def nsPerSecond : Int := 1000000000

def usToCycles (us : Int) : Int := toCycles usPerSecond us

theorem nsToCycles_eq_toCycles (ns : Int) : nsToCycles ns = toCycles nsPerSecond ns := rfl

/-- The product of the branch that a time takes; the last branch has none. -/
def cyclesProduct (perSecond t : Int) : Option Int :=
  if t.tdiv perSecond > maxValueToMultiply then none
  else if t > maxValueToMultiply then some (baseClockRateArm11 * t.tdiv perSecond)
  else some (baseClockRateArm11 * t)

/-- The largest value is returned in place of the number of cycles. -/
def Saturates (perSecond t : Int) : Prop := maxValueToMultiply < t.tdiv perSecond

instance (perSecond t : Int) : Decidable (Saturates perSecond t) := inferInstanceAs (Decidable (_ < _))

/-- The conversion of `b` is rounded down below the conversion of an earlier `a`, which is not rounded: the two are
on the two sides of `MAX_VALUE_TO_MULTIPLY`, in the same second. -/
def StepsBack (perSecond a b : Int) : Prop :=
  a ≤ maxValueToMultiply ∧ maxValueToMultiply < b ∧ b / perSecond = maxValueToMultiply / perSecond ∧
    baseClockRateArm11 * (b / perSecond) < baseClockRateArm11 * a / perSecond

instance (perSecond a b : Int) : Decidable (StepsBack perSecond a b) :=
  inferInstanceAs (Decidable (_ ∧ _ ∧ _ ∧ _))

private theorem clock_pos : 0 < baseClockRateArm11 := by decide

private theorem clock_mul_max : baseClockRateArm11 * maxValueToMultiply ≤ 2 ^ 63 - 1 := by decide

variable {p t : Int}

private theorem clock_mul_le (h : t ≤ maxValueToMultiply) : baseClockRateArm11 * t ≤ 2 ^ 63 - 1 := by
  have hmul : baseClockRateArm11 * t ≤ baseClockRateArm11 * maxValueToMultiply :=
    Int.mul_le_mul_of_nonneg_left h (le_of_lt clock_pos)
  have hmax := clock_mul_max
  omega

private theorem clock_mul_nonneg (h : 0 ≤ t) : 0 ≤ baseClockRateArm11 * t :=
  Int.mul_nonneg (le_of_lt clock_pos) h

theorem cyclesProduct_fits {p t x : Int} (hp : 0 < p) (h0 : 0 ≤ t) (hx : cyclesProduct p t = some x) :
    0 ≤ x ∧ x < 2 ^ 63 := by
  have hdiv : 0 ≤ t.tdiv p := Int.tdiv_nonneg h0 (le_of_lt hp)
  unfold cyclesProduct at hx
  split at hx
  · cases hx
  · split at hx
    · simp only [Option.some.injEq] at hx
      have hle := clock_mul_le (t := t.tdiv p) (by omega)
      have hnonneg := clock_mul_nonneg hdiv
      omega
    · simp only [Option.some.injEq] at hx
      have hle := clock_mul_le (t := t) (by omega)
      have hnonneg := clock_mul_nonneg h0
      omega

private theorem toCycles_of_saturates (h : Saturates p t) : toCycles p t = 2 ^ 63 - 1 := by
  unfold Saturates at h
  unfold toCycles
  rw [if_pos (by omega)]

private theorem toCycles_of_gt (h0 : 0 ≤ t) (hs : ¬ Saturates p t) (ht : maxValueToMultiply < t) :
    toCycles p t = baseClockRateArm11 * (t / p) := by
  unfold Saturates at hs
  unfold toCycles
  rw [if_neg (by omega), if_pos (by omega), Int.tdiv_eq_ediv_of_nonneg h0]

private theorem not_saturates_of_le (h0 : 0 ≤ t) (ht : t ≤ maxValueToMultiply) : ¬ Saturates p t := by
  have hdiv : t / p ≤ t := Int.ediv_le_self p h0
  unfold Saturates
  rw [Int.tdiv_eq_ediv_of_nonneg h0]
  omega

private theorem toCycles_of_le (h0 : 0 ≤ t) (ht : t ≤ maxValueToMultiply) :
    toCycles p t = baseClockRateArm11 * t / p := by
  have hs := not_saturates_of_le (p := p) h0 ht
  have hle := clock_mul_le ht
  have hnonneg := clock_mul_nonneg h0
  unfold Saturates at hs
  unfold toCycles
  rw [if_neg (by omega), if_neg (by omega), Int.emod_eq_of_lt hnonneg (by omega)]

private theorem clock_ediv (hp : 0 < p) : baseClockRateArm11 * (t / p) ≤ baseClockRateArm11 * t / p ∧
      baseClockRateArm11 * t / p < baseClockRateArm11 * (t / p) + baseClockRateArm11 := by
  have hsplit : p * (t / p) + t % p = t := Int.mul_ediv_add_emod t p
  have hrest : 0 ≤ t % p := Int.emod_nonneg t (by omega)
  have hlt : t % p < p := Int.emod_lt_of_pos t hp
  have hpos := clock_pos
  constructor
  · rw [Int.le_ediv_iff_mul_le hp]
    nlinarith
  · rw [Int.ediv_lt_iff_lt_mul hp]
    nlinarith

private theorem toCycles_bounds (hp : 0 < p) (h0 : 0 ≤ t) (hs : ¬ Saturates p t) :
    baseClockRateArm11 * (t / p) ≤ toCycles p t ∧ toCycles p t ≤ baseClockRateArm11 * t / p := by
  obtain ⟨hlow, -⟩ := clock_ediv (t := t) hp
  by_cases ht : t ≤ maxValueToMultiply
  · rw [toCycles_of_le h0 ht]
    exact ⟨hlow, le_refl _⟩
  · rw [toCycles_of_gt h0 hs (by omega)]
    exact ⟨le_refl _, hlow⟩

theorem toCycles_le_max (h0 : 0 ≤ t) : toCycles p t ≤ 2 ^ 63 - 1 := by
  by_cases hs : Saturates p t
  · rw [toCycles_of_saturates hs]
  · by_cases ht : t ≤ maxValueToMultiply
    · have hle : baseClockRateArm11 * t / p ≤ baseClockRateArm11 * t :=
        Int.ediv_le_self p (clock_mul_nonneg h0)
      have hmul := clock_mul_le ht
      rw [toCycles_of_le h0 ht]
      omega
    · rw [toCycles_of_gt h0 hs (by omega)]
      unfold Saturates at hs
      rw [Int.tdiv_eq_ediv_of_nonneg h0] at hs
      exact clock_mul_le (by omega)

private theorem not_saturates_of_later {p a b : Int} (hp : 0 < p) (h0 : 0 ≤ a) (hab : a ≤ b) (hs : ¬ Saturates p b) :
    ¬ Saturates p a := by
  have hdiv : a / p ≤ b / p := Int.ediv_le_ediv hp hab
  unfold Saturates at hs ⊢
  rw [Int.tdiv_eq_ediv_of_nonneg (by omega)] at hs ⊢
  omega

/-- A later time converts to at least as many cycles, except where rounding starts. -/
theorem toCycles_le_iff {p a b : Int} (hp : 0 < p) (h0 : 0 ≤ a) (hab : a ≤ b) :
    toCycles p a ≤ toCycles p b ↔ ¬ StepsBack p a b := by
  have hmul : baseClockRateArm11 * a ≤ baseClockRateArm11 * b :=
    Int.mul_le_mul_of_nonneg_left hab (le_of_lt clock_pos)
  have hsec : a / p ≤ b / p := Int.ediv_le_ediv hp hab
  by_cases hs : Saturates p b
  · -- The largest value is above everything, and the seconds of `b` are above the bound.
    rw [toCycles_of_saturates hs]
    refine iff_of_true (toCycles_le_max h0) ?_
    rintro ⟨-, -, hsame, -⟩
    have hself : maxValueToMultiply / p ≤ maxValueToMultiply := Int.ediv_le_self p (by decide)
    unfold Saturates at hs
    rw [Int.tdiv_eq_ediv_of_nonneg (by omega)] at hs
    omega
  have hsa := not_saturates_of_later hp h0 hab hs
  by_cases hb : b ≤ maxValueToMultiply
  · rw [toCycles_of_le h0 (by omega), toCycles_of_le (by omega) hb]
    refine iff_of_true (Int.ediv_le_ediv hp hmul) ?_
    rintro ⟨-, hgt, -⟩
    omega
  rw [toCycles_of_gt (by omega) hs (by omega)]
  by_cases ha : a ≤ maxValueToMultiply
  · rw [toCycles_of_le h0 ha]
    have hmax : a / p ≤ maxValueToMultiply / p := Int.ediv_le_ediv hp ha
    have hmax' : maxValueToMultiply / p ≤ b / p := Int.ediv_le_ediv hp (by omega)
    by_cases hsame : b / p = maxValueToMultiply / p
    · constructor
      · rintro hle ⟨-, -, -, hlt⟩
        omega
      · intro hnot
        by_contra hgt
        exact hnot ⟨ha, by omega, hsame, by omega⟩
    · -- `b` is in a later second than `a`.
      refine iff_of_true ?_ fun h => hsame h.2.2.1
      obtain ⟨-, hup⟩ := clock_ediv (t := a) hp
      have hnext : baseClockRateArm11 * (a / p + 1) ≤ baseClockRateArm11 * (b / p) :=
        Int.mul_le_mul_of_nonneg_left (by omega) (le_of_lt clock_pos)
      rw [Int.mul_add, Int.mul_one] at hnext
      omega
  · rw [toCycles_of_gt h0 hsa (by omega)]
    refine iff_of_true (Int.mul_le_mul_of_nonneg_left hsec (le_of_lt clock_pos)) ?_
    rintro ⟨hle, -⟩
    omega

theorem toCycles_lt_add {p a b : Int} (hp : 0 < p) (h0 : 0 ≤ a) (hab : a ≤ b) :
    toCycles p a < toCycles p b + baseClockRateArm11 := by
  have hpos := clock_pos
  by_cases hs : Saturates p b
  · have hle := toCycles_le_max (p := p) h0
    rw [toCycles_of_saturates hs]
    omega
  · obtain ⟨-, hle⟩ := toCycles_bounds hp h0 (not_saturates_of_later hp h0 hab hs)
    obtain ⟨hge, -⟩ := toCycles_bounds hp (by omega) hs
    obtain ⟨-, hup⟩ := clock_ediv (t := a) hp
    have hsec : baseClockRateArm11 * (a / p) ≤ baseClockRateArm11 * (b / p) :=
      Int.mul_le_mul_of_nonneg_left (Int.ediv_le_ediv hp hab) (le_of_lt clock_pos)
    omega

theorem toCycles_accurate (hp : 0 < p) (h0 : 0 ≤ t) (hs : ¬ Saturates p t) :
    |(toCycles p t : ℚ) - t * baseClockRateArm11 / p| < baseClockRateArm11 := by
  obtain ⟨hlow, hup⟩ := toCycles_bounds hp h0 hs
  have hpos := clock_pos
  have hsplit : p * (t / p) + t % p = t := Int.mul_ediv_add_emod t p
  have hlt : t % p < p := Int.emod_lt_of_pos t hp
  have hbelow : toCycles p t * p ≤ t * baseClockRateArm11 := by
    have h := (Int.le_ediv_iff_mul_le hp).1 hup
    rw [Int.mul_comm baseClockRateArm11] at h
    exact h
  have habove : t * baseClockRateArm11 < (toCycles p t + baseClockRateArm11) * p := by nlinarith
  have hp' : (0 : ℚ) < p := by exact_mod_cast hp
  have hbelow' : (toCycles p t : ℚ) ≤ t * baseClockRateArm11 / p := by
    rw [le_div_iff₀ hp']
    exact_mod_cast hbelow
  have habove' : (t : ℚ) * baseClockRateArm11 / p < toCycles p t + baseClockRateArm11 := by
    rw [div_lt_iff₀ hp']
    exact_mod_cast habove
  have hclock : (0 : ℚ) < baseClockRateArm11 := by exact_mod_cast hpos
  rw [abs_lt]
  constructor <;> linarith

theorem not_saturates_ns {ns : Int} (h0 : 0 ≤ ns) (h1 : ns < 2 ^ 63) : ¬ Saturates nsPerSecond ns := by
  have hmax : maxValueToMultiply = 34401209161 := by decide
  unfold Saturates nsPerSecond
  rw [hmax, Int.tdiv_eq_ediv_of_nonneg h0]
  omega

/-- What a conversion of two times `a ≤ b` keeps. -/
structure ConvertsOrderly (convert : Int → Int) (perSecond a b : Int) : Prop where
  monotone : convert a ≤ convert b ↔ ¬ StepsBack perSecond a b
  stepBack : convert a < convert b + baseClockRateArm11
  products : ∀ x, cyclesProduct perSecond a = some x → 0 ≤ x ∧ x < 2 ^ 63
  accurate : ¬ Saturates perSecond a →
    |(convert a : ℚ) - a * baseClockRateArm11 / perSecond| < baseClockRateArm11

private theorem toCycles_convertsOrderly {p a b : Int} (hp : 0 < p) (h0 : 0 ≤ a) (hab : a ≤ b) :
    ConvertsOrderly (toCycles p) p a b where
  monotone := toCycles_le_iff hp h0 hab
  stepBack := toCycles_lt_add hp h0 hab
  products := fun _ hx => cyclesProduct_fits hp h0 hx
  accurate := toCycles_accurate hp h0

/-- Both conversions are monotone but for the step where rounding starts, no product overflows, and the result is off
by less than a second's worth of cycles. -/
theorem cycles_convertsOrderly (a b : Int) (h0 : 0 ≤ a) (hab : a ≤ b) (hb : b < 2 ^ 63) :
    ConvertsOrderly nsToCycles nsPerSecond a b ∧ ConvertsOrderly usToCycles usPerSecond a b ∧
      |(nsToCycles a : ℚ) - a * 268111856 / 10 ^ 9| < 268111856 := by
  refine ⟨toCycles_convertsOrderly (by decide) h0 hab, toCycles_convertsOrderly (by decide) h0 hab, ?_⟩
  have hacc := toCycles_accurate (p := nsPerSecond) (by decide) h0 (not_saturates_ns h0 (by omega))
  rw [nsToCycles_eq_toCycles]
  have hp : ((nsPerSecond : Int) : ℚ) = 10 ^ 9 := by norm_num [nsPerSecond]
  have hc : ((baseClockRateArm11 : Int) : ℚ) = 268111856 := by norm_num [baseClockRateArm11]
  rw [hp, hc] at hacc
  exact hacc

theorem cycles_convertsOrderly_second :
    ConvertsOrderly nsToCycles nsPerSecond 1000000000 34500000000 ∧
      ConvertsOrderly usToCycles usPerSecond 1000000000 34500000000 ∧
      |(nsToCycles 1000000000 : ℚ) - (1000000000 : Int) * 268111856 / 10 ^ 9| < 268111856 :=
  cycles_convertsOrderly 1000000000 34500000000 (by decide) (by decide) (by decide)

/-- One nanosecond after the last time that is not rounded, the conversion steps back. -/
theorem nsToCycles_steps_back :
    ¬ ∀ a b : Int, 0 ≤ a → a ≤ b → b < 2 ^ 63 → nsToCycles a ≤ nsToCycles b := by
  intro h
  have hle := h 34401209161 34401209162 (by decide) (by decide) (by decide)
  revert hle
  decide

end SweepDSEmu
