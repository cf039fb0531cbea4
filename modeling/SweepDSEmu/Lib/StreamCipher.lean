import Mathlib.Data.List.Basic

/-!
# Stream ciphers

Bytes with a keystream added by exclusive or, as in the counter mode of a block cipher.
-/

namespace SweepDSEmu

def xorStream (keystream : Nat → UInt8) (bytes : List UInt8) : List UInt8 :=
  bytes.mapIdx fun i b => b ^^^ keystream i

variable (keystream : Nat → UInt8) (bytes : List UInt8)

@[simp] theorem length_xorStream : (xorStream keystream bytes).length = bytes.length := List.length_mapIdx

theorem getElem?_xorStream (i : Nat) : (xorStream keystream bytes)[i]? = bytes[i]?.map (· ^^^ keystream i) :=
  List.getElem?_mapIdx

theorem xorStream_take (n : Nat) : xorStream keystream (bytes.take n) = (xorStream keystream bytes).take n := by
  apply List.ext_getElem?
  intro i
  rw [getElem?_xorStream, List.getElem?_take, List.getElem?_take]
  split
  · rw [getElem?_xorStream]
  · rfl

/-- The part after the beginning is treated with the rest of the keystream. -/
theorem xorStream_drop (n : Nat) :
    (xorStream keystream bytes).drop n = xorStream (fun i => keystream (n + i)) (bytes.drop n) := by
  apply List.ext_getElem?
  intro i
  rw [List.getElem?_drop, getElem?_xorStream, getElem?_xorStream, List.getElem?_drop]

end SweepDSEmu
