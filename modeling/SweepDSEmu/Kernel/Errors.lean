import Mathlib.Algebra.Group.Nat.Defs

/-!
# Result codes and failed assertions

The result codes of `errors.h` that the modelled functions return, under the names of the source without the
prefix `Result`.
-/

namespace SweepDSEmu

inductive ResultCode where
  | success
  | outOfHandles
  | invalidHandle
  | invalidCombination
  | misalignedAddress
  | misalignedSize
  | outOfMemory
  | outOfHeapMemory
  | invalidAddress
  | invalidAddressState
  | commandTooLarge
  | outOfRangeKernel
  | outOfRange
  | notAuthorized
  /-- The error of `CreateThread` for an entry point that is not mapped. -/
  | invalidEntryPoint
  deriving DecidableEq

end SweepDSEmu
