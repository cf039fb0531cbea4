import Mathlib.Algebra.GroupWithZero.Nat
import Mathlib.Data.Fin.Basic

/-!
# Numerals below a size

The indices of arrays of a fixed size are numerals of `Fin`.  One instance for each size makes them the same everywhere.
-/

namespace SweepDSEmu

instance neZero_one : NeZero 1 := ⟨by decide⟩

instance neZero_two : NeZero 2 := ⟨by decide⟩

instance neZero_three : NeZero 3 := ⟨by decide⟩

instance neZero_four : NeZero 4 := ⟨by decide⟩

instance neZero_eight : NeZero 8 := ⟨by decide⟩

instance neZero_sixteen : NeZero 16 := ⟨by decide⟩

instance neZero_numRegs : NeZero 768 := ⟨by decide⟩

end SweepDSEmu
