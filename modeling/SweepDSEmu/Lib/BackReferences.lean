import Mathlib.Data.List.Basic

/-!
# Expanding back references

Data that is written from its end to its beginning, out of literals and copies of what was written before.
-/

namespace SweepDSEmu

variable {α : Type}

/-- A literal, or a copy of elements `offset` places behind; the data can end inside a token. -/
inductive Token (α : Type) where
  | literal (a : α)
  | copy (offset size : Nat)
  | truncated
  deriving DecidableEq

/-- Copies elements one by one, so that a copy can repeat what it has just written. -/
def copyBack (offset : Nat) : Nat → List α → Option (List α)
  | 0, written => some written
  | size + 1, written =>
    match written[offset]? with
    | some a => copyBack offset size (a :: written)
    | none => none

/-- Writes tokens in front of what is written until `bound` elements are there. -/
def expand (bound : Nat) : List α → List (Token α) → Option (List α)
  | written, [] => some written
  | written, t :: tokens =>
    if written.length = bound then some written
    else
      match t with
      | .literal a => expand bound (a :: written) tokens
      | .copy offset size =>
        if bound < written.length + size then none
        else
          match copyBack offset size written with
          | some written => expand bound written tokens
          | none => none
      | .truncated => none

theorem length_copyBack {offset size : Nat} {written result : List α} (h : copyBack offset size written = some result) :
    result.length = written.length + size := by
  induction size generalizing written with
  | zero =>
    cases h
    rfl
  | succ size ih =>
    rw [copyBack] at h
    split at h
    · have hlength := ih h
      rw [List.length_cons] at hlength
      omega
    · cases h

theorem expand_of_length_eq {bound : Nat} {written : List α} (h : written.length = bound) (tokens : List (Token α)) :
    expand bound written tokens = some written := by
  cases tokens with
  | nil => rfl
  | cons t tokens =>
    cases t with
    | literal a => rw [expand, if_pos h]
    | copy offset size => rw [expand, if_pos h]
    | truncated => rw [expand, if_pos h]

end SweepDSEmu
