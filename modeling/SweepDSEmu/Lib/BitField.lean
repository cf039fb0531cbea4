import Mathlib.Data.List.Basic
import Mathlib.Data.Nat.Bitwise

/-!
# Bit fields

A field of some bits of a storage word, as `Common::BitField` has it, and fields that are copied from one word to another.
-/

namespace SweepDSEmu

structure BitField where
  position : Nat
  bits : Nat
  deriving DecidableEq

namespace BitField

variable (f g : BitField)

def mask : Nat := (2 ^ f.bits - 1) <<< f.position

def extractValue (storage : Nat) : Nat := (storage &&& f.mask) >>> f.position

/-- `(storage & ~mask) | FormatValue(value)` -/
def assign (storage value : Nat) : Nat := storage ^^^ (storage &&& f.mask) ||| (value <<< f.position &&& f.mask)

def Disjoint : Prop := f.position + f.bits ≤ g.position ∨ g.position + g.bits ≤ f.position

instance : Decidable (Disjoint f g) := inferInstanceAs (Decidable (_ ∨ _))

theorem testBit_mask (i : Nat) : f.mask.testBit i = decide (f.position ≤ i ∧ i < f.position + f.bits) := by
  rw [mask, Nat.testBit_shiftLeft, Nat.testBit_two_pow_sub_one, ← Bool.decide_and]
  congr 1
  apply propext
  omega

theorem testBit_extractValue (storage i : Nat) :
    (f.extractValue storage).testBit i = (decide (i < f.bits) && storage.testBit (f.position + i)) := by
  rw [extractValue, Nat.testBit_shiftRight, Nat.testBit_and, testBit_mask, Bool.and_comm]
  congr 2
  apply propext
  omega

theorem testBit_assign (storage value i : Nat) :
    (f.assign storage value).testBit i =
      if f.position ≤ i ∧ i < f.position + f.bits then value.testBit (i - f.position) else storage.testBit i := by
  rw [assign, Nat.testBit_or, Nat.testBit_xor, Nat.testBit_and, Nat.testBit_and, Nat.testBit_shiftLeft, testBit_mask]
  split_ifs with h
  · simp [h]
  · simp [h]

theorem extractValue_lt (storage : Nat) : f.extractValue storage < 2 ^ f.bits := by
  refine Nat.lt_pow_two_of_testBit _ fun i hi => ?_
  rw [testBit_extractValue, decide_eq_false (by omega), Bool.false_and]

theorem extractValue_assign (storage value : Nat) : f.extractValue (f.assign storage value) = value % 2 ^ f.bits := by
  refine Nat.eq_of_testBit_eq fun i => ?_
  rw [testBit_extractValue, testBit_assign, Nat.testBit_mod_two_pow]
  by_cases hi : i < f.bits
  · simp [hi]
  · simp [hi]

variable {f g}

theorem extractValue_assign_of_disjoint (h : Disjoint g f) (storage value : Nat) :
    g.extractValue (f.assign storage value) = g.extractValue storage := by
  refine Nat.eq_of_testBit_eq fun i => ?_
  rw [testBit_extractValue, testBit_extractValue, testBit_assign]
  by_cases hi : i < g.bits
  · unfold Disjoint at h
    rw [if_neg (by omega)]
  · simp [hi]

theorem assign_lt {n storage value : Nat} (hstorage : storage < 2 ^ n) (hfits : f.position + f.bits ≤ n) :
    f.assign storage value < 2 ^ n := by
  refine Nat.lt_pow_two_of_testBit _ fun i hi => ?_
  rw [testBit_assign, if_neg (by omega)]
  exact Nat.testBit_lt_two_pow (Nat.lt_of_lt_of_le hstorage (Nat.pow_le_pow_right (by omega) hi))

def copy (fields : List BitField) (src dst : Nat) : Nat :=
  fields.foldl (fun dst f => f.assign dst (f.extractValue src)) dst

theorem copy_lt {n : Nat} {fields : List BitField} (hfits : ∀ f ∈ fields, f.position + f.bits ≤ n) (src : Nat)
    {dst : Nat} (hdst : dst < 2 ^ n) : copy fields src dst < 2 ^ n := by
  induction fields generalizing dst with
  | nil => exact hdst
  | cons f fields ih =>
    apply ih (fun g hg => hfits g (List.mem_cons_of_mem _ hg))
    exact assign_lt hdst (hfits f List.mem_cons_self)

theorem extractValue_copy_of_disjoint {fields : List BitField} (h : ∀ f ∈ fields, Disjoint g f) (src dst : Nat) :
    g.extractValue (copy fields src dst) = g.extractValue dst := by
  induction fields generalizing dst with
  | nil => rfl
  | cons f fields ih =>
    refine (ih (fun f' hf' => h f' (List.mem_cons_of_mem _ hf')) _).trans ?_
    exact extractValue_assign_of_disjoint (h f List.mem_cons_self) _ _

theorem extractValue_copy {fields : List BitField} (hdisjoint : fields.Pairwise Disjoint) (src dst : Nat)
    (hf : f ∈ fields) : f.extractValue (copy fields src dst) = f.extractValue src := by
  induction fields generalizing dst with
  | nil => exact absurd hf List.not_mem_nil
  | cons g fields ih =>
    obtain ⟨hg, hrest⟩ := List.pairwise_cons.mp hdisjoint
    rcases List.mem_cons.mp hf with rfl | hf
    · refine (extractValue_copy_of_disjoint hg _ _).trans ?_
      rw [extractValue_assign]
      exact Nat.mod_eq_of_lt (extractValue_lt _ _)
    · exact ih hrest _ hf

end BitField

end SweepDSEmu
