import SweepDSEmu.Kernel.Errors
import Mathlib.Tactic.Common

/-!
# The handle table of a process

A handle packs a slot index and a generation.  The array `generations` has two uses: at an occupied slot it holds
the generation of the handle, at an empty slot it holds the index of the next empty slot, so that the empty slots
form a linked list that starts at `nextFreeSlot` and ends at `maxCount`.

The functions are those of `handle_table.cpp`.  A 16-bit field is a natural number; the only place where the width
matters is `getSlot`, whose result the source stores in 16 bits.  The objects are never null: `create` is called
with an object.
-/

namespace SweepDSEmu

abbrev Handle := UInt32

namespace Handle

def currentThread : Handle := 0xFFFF8000

def currentProcess : Handle := 0xFFFF8001

/-- `GetSlot`: the shift leaves 17 bits, of which the 16-bit result keeps the lower 16. -/
def getSlot (handle : Handle) : Nat := (handle.toNat >>> 15) % 2 ^ 16

def getGeneration (handle : Handle) : Nat := handle.toNat &&& 0x7FFF

/-- The handle that `Create` returns for a generation and a slot. -/
def pack (generation slot : Nat) : Handle := UInt32.ofNat (generation ||| slot <<< 15)

theorem getGeneration_eq (h : Handle) : getGeneration h = h.toNat % 2 ^ 15 := by
  rw [getGeneration, show (0x7FFF : Nat) = 2 ^ 15 - 1 from rfl, Nat.and_two_pow_sub_one_eq_mod]

theorem getSlot_eq (h : Handle) : getSlot h = h.toNat / 2 ^ 15 % 2 ^ 16 := by
  rw [getSlot, Nat.shiftRight_eq_div_pow]

theorem toNat_pack {g s : Nat} (hg : g < 2 ^ 15) (hs : s < 2 ^ 16) : (pack g s).toNat = s * 2 ^ 15 + g := by
  have hor : g ||| s <<< 15 = s * 2 ^ 15 + g := by
    rw [Nat.or_comm, ← Nat.shiftLeft_add_eq_or_of_lt hg, Nat.shiftLeft_eq]
  rw [pack, hor, UInt32.toNat_ofNat']
  exact Nat.mod_eq_of_lt (by omega)

theorem getSlot_pack {g s : Nat} (hg : g < 2 ^ 15) (hs : s < 2 ^ 16) : getSlot (pack g s) = s := by
  rw [getSlot_eq, toNat_pack hg hs]; omega

theorem getGeneration_pack {g s : Nat} (hg : g < 2 ^ 15) (hs : s < 2 ^ 16) : getGeneration (pack g s) = g := by
  rw [getGeneration_eq, toNat_pack hg hs]; omega

/-- Below `2 ^ 31` a handle is determined by its slot and its generation. -/
theorem pack_get {h : Handle} (hh : h.toNat < 2 ^ 31) : pack (getGeneration h) (getSlot h) = h := by
  apply UInt32.toNat_inj.mp
  rw [getGeneration_eq, getSlot_eq, toNat_pack (by omega) (by omega)]
  omega

end Handle

structure HandleTable (Obj : Type) where
  objects : Nat → Option Obj
  generations : Nat → Nat
  nextGeneration : Nat
  nextFreeSlot : Nat

/-- What the pseudo-handles stand for: the running thread and process of the kernel, either may be null. -/
structure Current (Obj : Type) where
  thread : Option Obj
  process : Option Obj

namespace HandleTable

open Handle Function

variable {Obj : Type}

def maxCount : Nat := 4096

def clear (t : HandleTable Obj) : HandleTable Obj :=
  { t with generations := fun i => i + 1, objects := fun _ => none, nextFreeSlot := 0 }

def init : HandleTable Obj :=
  clear { objects := fun _ => none, generations := fun _ => 0, nextGeneration := 1, nextFreeSlot := 0 }

def create (t : HandleTable Obj) (obj : Obj) : Except ResultCode (Handle × HandleTable Obj) :=
  let slot := t.nextFreeSlot
  if slot < maxCount then
    let generation := t.nextGeneration
    .ok (pack generation slot,
      { objects := update t.objects slot (some obj)
        generations := update t.generations slot generation
        -- the counter wraps to 1, as generation 0 is not used
        nextGeneration := if 2 ^ 15 ≤ generation + 1 then 1 else generation + 1
        nextFreeSlot := t.generations slot })
  else
    .error .outOfHandles

def isValid (t : HandleTable Obj) (handle : Handle) : Bool :=
  decide (getSlot handle < maxCount) && (t.objects (getSlot handle)).isSome &&
    t.generations (getSlot handle) == getGeneration handle

def getGeneric (t : HandleTable Obj) (cur : Current Obj) (handle : Handle) : Option Obj :=
  if handle = currentThread then cur.thread
  else if handle = currentProcess then cur.process
  else if t.isValid handle then t.objects (getSlot handle)
  else none

def close (t : HandleTable Obj) (handle : Handle) : Except ResultCode (HandleTable Obj) :=
  if t.isValid handle then
    let slot := getSlot handle
    .ok { t with
      objects := update t.objects slot none
      generations := update t.generations slot t.nextFreeSlot
      nextFreeSlot := slot }
  else
    .error .invalidHandle

def duplicate (t : HandleTable Obj) (cur : Current Obj) (handle : Handle) :
    Except ResultCode (Handle × HandleTable Obj) :=
  match t.getGeneric cur handle with
  | some obj => t.create obj
  | none => .error .invalidHandle

theorem isValid_iff {t : HandleTable Obj} {h : Handle} :
    t.isValid h = true ↔ getSlot h < maxCount ∧ (t.objects (getSlot h)).isSome ∧
      t.generations (getSlot h) = getGeneration h := by
  simp [isValid, and_assoc]

/-- Neither pseudo-handle is below `2 ^ 31`, so on such values `GetGeneric` only looks at the table. -/
theorem getGeneric_of_lt {t : HandleTable Obj} {cur : Current Obj} {h : Handle} (hh : h.toNat < 2 ^ 31) :
    t.getGeneric cur h = if t.isValid h then t.objects (getSlot h) else none := by
  have h1 : h ≠ currentThread := by rintro rfl; exact absurd hh (by decide)
  have h2 : h ≠ currentProcess := by rintro rfl; exact absurd hh (by decide)
  simp only [getGeneric, h1, h2, ↓reduceIte]

/-- The empty slots visited from `start` along `generations`, ending at `maxCount`. -/
def FreeList (t : HandleTable Obj) : Nat → List Nat → Prop
  | start, [] => start = maxCount
  | start, s :: l => start = s ∧ s < maxCount ∧ FreeList t (t.generations s) l

theorem FreeList.congr {t t' : HandleTable Obj} {l : List Nat} {start : Nat} (h : FreeList t start l)
    (hg : ∀ s ∈ l, t'.generations s = t.generations s) : FreeList t' start l := by
  induction l generalizing start with
  | nil => exact h
  | cons s l ih =>
    obtain ⟨hs, hlt, htail⟩ := h
    refine ⟨hs, hlt, ?_⟩
    rw [hg s (by simp)]
    exact ih htail (fun u hu => hg u (by simp [hu]))

end HandleTable

end SweepDSEmu
