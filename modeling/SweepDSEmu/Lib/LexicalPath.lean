import Mathlib.Data.List.Basic

/-!
# Paths that are resolved lexically

A path is a walk: a list of names, of which one stands for the parent directory.  Resolving it without asking the host
takes every other name out together with the step up that follows it.
-/

namespace SweepDSEmu

variable {α : Type} [DecidableEq α]

/-- One step of a walk.  A rooted walk stays at the root when it goes up there; another one keeps the step up. -/
def resolveStep (up : α) (rooted : Bool) (dir : List α) (name : α) : List α :=
  if name = up then
    match dir.getLast? with
    | none => if rooted then [] else [up]
    | some last => if last = up then dir ++ [up] else dir.dropLast
  else dir ++ [name]

def resolve (up : α) (rooted : Bool) (walk : List α) : List α := walk.foldl (resolveStep up rooted) []

variable (up : α) (rooted : Bool)

theorem resolve_concat (walk : List α) {name : α} (h : name ≠ up) :
    resolve up rooted (walk ++ [name]) = resolve up rooted walk ++ [name] := by
  unfold resolve
  rw [List.foldl_append, List.foldl_cons, List.foldl_nil, resolveStep, if_neg h]

/-- A walk whose last name is not the parent ends in a child of a directory exactly when the rest leads there. -/
theorem resolve_concat_child_iff (walk dir : List α) {name : α} (h : name ≠ up) :
    (∃ child, resolve up rooted (walk ++ [name]) = dir ++ [child]) ↔ resolve up rooted walk = dir := by
  rw [resolve_concat up rooted walk h]
  constructor
  · intro ⟨child, heq⟩
    exact (List.append_inj' heq rfl).1
  · intro heq
    exact ⟨name, by rw [heq]⟩

end SweepDSEmu
