import Mathlib.Data.List.Basic

/-!
# Recursive locks

Locks that their owner may acquire again.  A lock is free, or it has an owner and a number: how often it has been
acquired on top of the first time.

Over a run in which no lock is abandoned, the number of acquisitions and of releases say how often a lock is held:
`run_holds`.
-/

namespace SweepDSEmu.RecursiveLock

variable {κ τ : Type} [DecidableEq κ] [DecidableEq τ]

/-- What happens to the lock `k`. -/
inductive Event (κ τ : Type) where
  | acquire (k : κ) (t : τ)
  | release (k : κ) (t : τ)
  /-- The owner disappears. -/
  | abandon (k : κ)
  deriving DecidableEq

/-- The owner of every lock, and how often it has been acquired again. -/
abbrev Owners (κ τ : Type) := κ → Option (τ × Nat)

/-- A lock that another one holds cannot be acquired. -/
def acquireBy (t : τ) : Option (τ × Nat) → Option (Option (τ × Nat))
  | none => some (some (t, 0))
  | some (u, n) => if u = t then some (some (t, n + 1)) else none

def releaseBy (t : τ) : Option (τ × Nat) → Option (Option (τ × Nat))
  | none => none
  | some (u, 0) => if u = t then some none else none
  | some (u, n + 1) => if u = t then some (some (t, n)) else none

def step (owner : Owners κ τ) : Event κ τ → Option (Owners κ τ)
  | .acquire k t => (acquireBy t (owner k)).map (Function.update owner k)
  | .release k t => (releaseBy t (owner k)).map (Function.update owner k)
  | .abandon k => some (Function.update owner k none)

def run (owner : Owners κ τ) (events : List (Event κ τ)) : Option (Owners κ τ) := events.foldlM step owner

def holds : Option (τ × Nat) → Nat
  | none => 0
  | some (_, n) => n + 1

def isAcquire (k : κ) : Event κ τ → Bool
  | .acquire k' _ => k' = k
  | _ => false

def isRelease (k : κ) : Event κ τ → Bool
  | .release k' _ => k' = k
  | _ => false

def Event.acquires : Event κ τ → Bool
  | .acquire .. => true
  | _ => false

variable {owner owner' : Owners κ τ} {k : κ} {t : τ} {e : Event κ τ} {events : List (Event κ τ)}
  {lock lock' : Option (τ × Nat)}

theorem holds_acquireBy (h : acquireBy t lock = some lock') : holds lock' = holds lock + 1 := by
  unfold acquireBy at h
  split at h
  · cases h
    rfl
  · rw [Option.ite_none_right_eq_some] at h
    obtain ⟨-, h⟩ := h
    cases h
    rfl

theorem holds_releaseBy (h : releaseBy t lock = some lock') : holds lock' + 1 = holds lock := by
  unfold releaseBy at h
  split at h
  · cases h
  · rw [Option.ite_none_right_eq_some] at h
    obtain ⟨-, h⟩ := h
    cases h
    rfl
  · rw [Option.ite_none_right_eq_some] at h
    obtain ⟨-, h⟩ := h
    cases h
    rfl

/-- One event changes how often a lock is held by one, unless it is abandoned. -/
theorem step_holds (h : step owner e = some owner') (he : e ≠ .abandon k) :
    holds (owner' k) + (isRelease k e).toNat = holds (owner k) + (isAcquire k e).toNat := by
  cases e with
  | acquire k' t =>
    obtain ⟨lock, hlock, rfl⟩ := Option.map_eq_some_iff.mp h
    by_cases hk : k' = k
    · subst hk
      rw [Function.update_self, holds_acquireBy hlock]
      simp [isAcquire, isRelease]
    · rw [Function.update_of_ne (Ne.symm hk)]
      simp [isAcquire, isRelease, hk]
  | release k' t =>
    obtain ⟨lock, hlock, rfl⟩ := Option.map_eq_some_iff.mp h
    by_cases hk : k' = k
    · subst hk
      rw [Function.update_self, ← holds_releaseBy hlock]
      simp [isAcquire, isRelease]
    · rw [Function.update_of_ne (Ne.symm hk)]
      simp [isAcquire, isRelease, hk]
  | abandon k' =>
    have hk : k' ≠ k := by
      rintro rfl
      exact he rfl
    cases h
    simp [isAcquire, isRelease, Function.update_of_ne (Ne.symm hk)]

theorem run_acquire (h : acquireBy t (owner k) = some lock) :
    run owner [.acquire k t] = some (Function.update owner k lock) := by
  simp [run, step, h]

theorem run_release (h : releaseBy t (owner k) = some lock) :
    run owner [.release k t] = some (Function.update owner k lock) := by
  simp [run, step, h]

theorem run_append (owner : Owners κ τ) (events events' : List (Event κ τ)) :
    run owner (events ++ events') = (run owner events).bind fun owner => run owner events' :=
  List.foldlM_append

theorem run_holds (h : run owner events = some owner') (hkept : .abandon k ∉ events) :
    holds (owner' k) + events.countP (isRelease k) = holds (owner k) + events.countP (isAcquire k) := by
  induction events generalizing owner with
  | nil =>
    cases h
    rfl
  | cons e events ih =>
    unfold run at h
    obtain ⟨owner₁, hstep, hrun⟩ := Option.bind_eq_some_iff.mp h
    rw [List.mem_cons, not_or] at hkept
    have hone := step_holds hstep (Ne.symm hkept.1)
    have hrest := ih hrun hkept.2
    rw [List.countP_cons, List.countP_cons]
    cases hr : isRelease k e <;> cases ha : isAcquire k e <;>
      simp only [hr, ha, Bool.toNat_true, Bool.toNat_false] at hone <;> simp <;> omega

end SweepDSEmu.RecursiveLock
