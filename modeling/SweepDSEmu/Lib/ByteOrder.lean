import Mathlib.Data.List.Basic
import Mathlib.Tactic.Ring

/-!
# Numbers in memory

The bytes of a number with the lowest one first, as a little-endian host has them, and the number of a list of bytes.
-/

namespace SweepDSEmu

def toLittleEndian : Nat → Nat → List UInt8
  | 0, _ => []
  | n + 1, x => UInt8.ofNat x :: toLittleEndian n (x / 256)

def ofLittleEndian : List UInt8 → Nat
  | [] => 0
  | b :: bytes => b.toNat + 256 * ofLittleEndian bytes

@[simp] theorem length_toLittleEndian (n x : Nat) : (toLittleEndian n x).length = n := by
  induction n generalizing x with
  | zero => rfl
  | succ n ih => simp [toLittleEndian, ih]

theorem ofLittleEndian_lt (bytes : List UInt8) : ofLittleEndian bytes < 256 ^ bytes.length := by
  induction bytes with
  | nil => simp [ofLittleEndian]
  | cons b bytes ih =>
    have hb := b.toNat_lt
    rw [ofLittleEndian, List.length_cons, pow_succ]
    omega

theorem ofLittleEndian_toLittleEndian {n x : Nat} (h : x < 256 ^ n) : ofLittleEndian (toLittleEndian n x) = x := by
  induction n generalizing x with
  | zero =>
    simp only [toLittleEndian, ofLittleEndian]
    omega
  | succ n ih =>
    have hrest : x / 256 < 256 ^ n := by
      omega
    rw [toLittleEndian, ofLittleEndian, ih hrest, UInt8.toNat_ofNat']
    omega

theorem toLittleEndian_ofLittleEndian (bytes : List UInt8) :
    toLittleEndian bytes.length (ofLittleEndian bytes) = bytes := by
  induction bytes with
  | nil => rfl
  | cons b bytes ih =>
    have hb := b.toNat_lt
    have hlow : UInt8.ofNat (b.toNat + 256 * ofLittleEndian bytes) = b := by
      apply UInt8.toNat_inj.mp
      rw [UInt8.toNat_ofNat']
      omega
    have hhigh : (b.toNat + 256 * ofLittleEndian bytes) / 256 = ofLittleEndian bytes := by omega
    rw [ofLittleEndian, List.length_cons, toLittleEndian, hlow, hhigh, ih]

theorem ofLittleEndian_replicate_zero (n : Nat) : ofLittleEndian (List.replicate n 0) = 0 := by
  induction n with
  | zero => rfl
  | succ n ih => rw [List.replicate_succ, ofLittleEndian, ih, UInt8.toNat_zero]

theorem ofLittleEndian_inj {bytes bytes' : List UInt8} (hlength : bytes.length = bytes'.length)
    (h : ofLittleEndian bytes = ofLittleEndian bytes') : bytes = bytes' := by
  rw [← toLittleEndian_ofLittleEndian bytes, ← toLittleEndian_ofLittleEndian bytes', hlength, h]

theorem ofLittleEndian_reverse_twice {n x : Nat} (h : x < 256 ^ n) :
    ofLittleEndian (toLittleEndian n (ofLittleEndian (toLittleEndian n x).reverse)).reverse = x := by
  have hlength : (toLittleEndian n x).reverse.length = n := by simp
  have hbytes := toLittleEndian_ofLittleEndian (toLittleEndian n x).reverse
  rw [hlength] at hbytes
  rw [hbytes, List.reverse_reverse, ofLittleEndian_toLittleEndian h]

theorem ofLittleEndian_reverse_lt (n x : Nat) : ofLittleEndian (toLittleEndian n x).reverse < 256 ^ n := by
  have h := ofLittleEndian_lt (toLittleEndian n x).reverse
  rwa [List.length_reverse, length_toLittleEndian] at h

end SweepDSEmu
