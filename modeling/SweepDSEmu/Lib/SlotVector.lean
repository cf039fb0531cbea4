import Mathlib.Data.List.Nodup

/-!
# Slot vectors

A vector of slots with a list of the free ones.  An object keeps its slot until it is erased, and the slot of an erased
object is the next one handed out.  A free slot holds no object and is in the list once.
-/

namespace SweepDSEmu

structure SlotVector (α : Type*) where
  values : Nat → Option α
  valuesCapacity : Nat
  freeList : List Nat
  nodup : freeList.Nodup
  free : ∀ i ∈ freeList, values i = none
  freeBound : ∀ i ∈ freeList, i < valuesCapacity
  bound : ∀ i a, values i = some a → i < valuesCapacity

namespace SlotVector

variable {α : Type*}

def empty : SlotVector α := ⟨fun _ => none, 0, [], List.nodup_nil, by simp, by simp, by simp⟩

def reserve (v : SlotVector α) (newCapacity : Nat) (h : v.valuesCapacity ≤ newCapacity) : SlotVector α where
  values := v.values
  valuesCapacity := newCapacity
  freeList := v.freeList ++ List.range' v.valuesCapacity (newCapacity - v.valuesCapacity)
  nodup := by
    refine List.nodup_append'.mpr ⟨v.nodup, List.nodup_range', ?_⟩
    intro i hi hi'
    have h1 := v.freeBound i hi
    have h2 := (List.mem_range'_1.mp hi').1
    omega
  free := by
    intro i hi
    rcases List.mem_append.mp hi with hi | hi
    · exact v.free i hi
    · have h1 := (List.mem_range'_1.mp hi).1
      cases hv : v.values i with
      | none => rfl
      | some a =>
        have h2 := v.bound i a hv
        omega
  freeBound := by
    intro i hi
    rcases List.mem_append.mp hi with hi | hi
    · exact Nat.lt_of_lt_of_le (v.freeBound i hi) h
    · have h1 := (List.mem_range'_1.mp hi).2
      omega
  bound := fun i a hi => Nat.lt_of_lt_of_le (v.bound i a hi) h

def withFreeSlot (v : SlotVector α) : SlotVector α :=
  if v.freeList = [] then
    v.reserve (if v.valuesCapacity = 0 then 1 else v.valuesCapacity * 2) (by split_ifs <;> omega)
  else v

variable (v : SlotVector α)

@[simp] theorem withFreeSlot_values : v.withFreeSlot.values = v.values := by
  unfold withFreeSlot
  by_cases h : v.freeList = []
  · rw [if_pos h]
    rfl
  · rw [if_neg h]

theorem withFreeSlot_freeList : v.withFreeSlot.freeList ≠ [] := by
  unfold withFreeSlot
  by_cases h : v.freeList = []
  · rw [if_pos h]
    intro hnil
    have hlen : (List.range' v.valuesCapacity
        ((if v.valuesCapacity = 0 then 1 else v.valuesCapacity * 2) - v.valuesCapacity)).length = 0 := by
      simp only [reserve, h, List.nil_append] at hnil
      rw [hnil, List.length_nil]
    rw [List.length_range'] at hlen
    split_ifs at hlen <;> omega
  · rw [if_neg h]
    exact h

def freeValueIndex (v : SlotVector α) : Nat := v.withFreeSlot.freeList.getLast v.withFreeSlot_freeList

theorem freeValueIndex_mem : v.freeValueIndex ∈ v.withFreeSlot.freeList :=
  List.getLast_mem v.withFreeSlot_freeList

theorem values_freeValueIndex : v.values v.freeValueIndex = none := by
  rw [← v.withFreeSlot_values]
  exact v.withFreeSlot.free _ v.freeValueIndex_mem

/-- Stores an object in the slot `freeValueIndex`. -/
def insert (v : SlotVector α) (a : α) : SlotVector α where
  values := Function.update v.values v.freeValueIndex (some a)
  valuesCapacity := v.withFreeSlot.valuesCapacity
  freeList := v.withFreeSlot.freeList.dropLast
  nodup := v.withFreeSlot.nodup.sublist (List.dropLast_sublist _)
  free := by
    intro i hi
    have hnodup := v.withFreeSlot.nodup
    rw [← List.dropLast_append_getLast v.withFreeSlot_freeList] at hnodup
    have hne : i ≠ v.freeValueIndex := by
      rintro rfl
      exact (List.nodup_append'.mp hnodup).2.2 hi List.mem_cons_self
    rw [Function.update_of_ne hne, ← v.withFreeSlot_values]
    exact v.withFreeSlot.free i ((List.dropLast_sublist _).subset hi)
  freeBound := fun i hi => v.withFreeSlot.freeBound i ((List.dropLast_sublist _).subset hi)
  bound := by
    intro i b hi
    by_cases hi' : i = v.freeValueIndex
    · rw [hi']
      exact v.withFreeSlot.freeBound _ v.freeValueIndex_mem
    · rw [Function.update_of_ne hi', ← v.withFreeSlot_values] at hi
      exact v.withFreeSlot.bound i b hi

def modify (v : SlotVector α) (id : Nat) (f : α → α) : SlotVector α where
  values := Function.update v.values id ((v.values id).map f)
  valuesCapacity := v.valuesCapacity
  freeList := v.freeList
  nodup := v.nodup
  free := by
    intro i hi
    by_cases h : i = id
    · subst h
      rw [Function.update_self, v.free i hi, Option.map_none]
    · rw [Function.update_of_ne h]
      exact v.free i hi
  freeBound := v.freeBound
  bound := by
    intro i a hi
    by_cases h : i = id
    · subst h
      rw [Function.update_self] at hi
      obtain ⟨b, hb, -⟩ := Option.map_eq_some_iff.mp hi
      exact v.bound i b hb
    · rw [Function.update_of_ne h] at hi
      exact v.bound i a hi

def erase (v : SlotVector α) (id : Nat) (h : (v.values id).isSome) : SlotVector α where
  values := Function.update v.values id none
  valuesCapacity := v.valuesCapacity
  freeList := v.freeList ++ [id]
  nodup := by
    refine List.nodup_append'.mpr ⟨v.nodup, List.nodup_singleton _, ?_⟩
    intro i hi hi'
    rw [List.mem_singleton.mp hi'] at hi
    rw [v.free id hi] at h
    cases h
  free := by
    intro i hi
    by_cases hid : i = id
    · rw [hid, Function.update_self]
    · rw [Function.update_of_ne hid]
      rcases List.mem_append.mp hi with hi | hi
      · exact v.free i hi
      · exact absurd (List.mem_singleton.mp hi) hid
  freeBound := by
    intro i hi
    rcases List.mem_append.mp hi with hi | hi
    · exact v.freeBound i hi
    · obtain ⟨a, ha⟩ := Option.isSome_iff_exists.mp h
      rw [List.mem_singleton.mp hi]
      exact v.bound id a ha
  bound := by
    intro i a hi
    by_cases hid : i = id
    · rw [hid, Function.update_self] at hi
      cases hi
    · rw [Function.update_of_ne hid] at hi
      exact v.bound i a hi

@[simp] theorem insert_values (a : α) :
    (v.insert a).values = Function.update v.values v.freeValueIndex (some a) := rfl

@[simp] theorem modify_values (id : Nat) (f : α → α) :
    (v.modify id f).values = Function.update v.values id ((v.values id).map f) := rfl

end SlotVector

end SweepDSEmu
