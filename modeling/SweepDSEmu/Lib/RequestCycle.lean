import Mathlib.Data.List.Count

/-!
# Requests and replies

Clients that send requests to servers and wait for the replies.  A client has at most one request; the request is
pending until a server takes it, and it is handled until the server replies.  A client may also wait for something
else.

Over a run a request is taken at most once, and it is answered at most once: `run_requests` and `run_accepts`.
-/

namespace SweepDSEmu.RequestCycle

variable {κ τ : Type} [DecidableEq κ] [DecidableEq τ]

/-- Why a client waits; `k` is the server. -/
inductive Phase (κ : Type) where
  | elsewhere
  | pending (k : κ)
  | handling (k : κ)
  deriving DecidableEq

inductive Event (κ τ : Type) where
  | request (k : κ) (t : τ)
  | accept (k : κ) (t : τ)
  | reply (k : κ) (t : τ)
  /-- The client waits for something else. -/
  | delay (t : τ)
  /-- It does so no more. -/
  | leave (t : τ)
  deriving DecidableEq

abbrev Waits (κ τ : Type) := τ → Option (Phase κ)

def Event.client : Event κ τ → τ
  | .request _ t | .accept _ t | .reply _ t | .delay t | .leave t => t

def Event.accepts : Event κ τ → Bool
  | .accept .. => true
  | _ => false

/-- A client has a request at a server. -/
def StoredAt (waits : Waits κ τ) (k : κ) (t : τ) : Prop :=
  waits t = some (.pending k) ∨ waits t = some (.handling k)

def advance : Option (Phase κ) → Event κ τ → Option (Option (Phase κ))
  | none, .request k _ => some (some (.pending k))
  | some (.pending k), .accept k' _ => if k = k' then some (some (.handling k)) else none
  | some (.handling k), .reply k' _ => if k = k' then some none else none
  | none, .delay _ => some (some .elsewhere)
  | none, .leave _ => some none
  | some .elsewhere, .leave _ => some none
  | _, _ => none

def step (waits : Waits κ τ) (e : Event κ τ) : Option (Waits κ τ) :=
  (advance (waits e.client) e).map (Function.update waits e.client)

def run (waits : Waits κ τ) (events : List (Event κ τ)) : Option (Waits κ τ) := events.foldlM step waits

variable {waits waits' : Waits κ τ} {k : κ} {t : τ} {e : Event κ τ} {events events' : List (Event κ τ)}

theorem run_advance {phase : Option (Phase κ)} (h : advance (waits e.client) e = some phase) :
    run waits [e] = some (Function.update waits e.client phase) := by
  simp [run, step, h]

theorem run_singleton (waits : Waits κ τ) (e : Event κ τ) : run waits [e] = step waits e := by
  simp [run]

theorem run_append (waits : Waits κ τ) (events events' : List (Event κ τ)) :
    run waits (events ++ events') = (run waits events).bind fun waits => run waits events' :=
  List.foldlM_append

theorem step_of_ne (h : step waits e = some waits') (ht : t ≠ e.client) : waits' t = waits t := by
  obtain ⟨phase, -, rfl⟩ := Option.map_eq_some_iff.mp h
  exact Function.update_of_ne ht ..

theorem step_client (h : step waits e = some waits') : advance (waits e.client) e = some (waits' e.client) := by
  obtain ⟨phase, hphase, rfl⟩ := Option.map_eq_some_iff.mp h
  rw [Function.update_self]
  exact hphase

theorem storedAt_of_step (h : step waits e = some waits') (he : ∀ k t, e ≠ .request k t)
    (hstored : StoredAt waits' k t) : StoredAt waits k t := by
  by_cases ht : t = e.client
  · subst ht
    have hadvance := step_client h
    unfold StoredAt at hstored ⊢
    generalize waits e.client = phase at hadvance ⊢
    generalize waits' e.client = phase' at hadvance hstored
    cases e with
    | request k' t => exact absurd rfl (he k' t)
    | accept k' t =>
      cases phase with
      | none => cases hadvance
      | some phase =>
        cases phase with
        | pending k'' =>
          simp only [advance, Option.ite_none_right_eq_some] at hadvance
          obtain ⟨rfl, hadvance⟩ := hadvance
          cases hadvance
          rcases hstored with hstored | hstored
          · cases hstored
          · cases hstored
            exact .inl rfl
        | _ => cases hadvance
    | reply k' t =>
      cases phase with
      | none => cases hadvance
      | some phase =>
        cases phase with
        | handling k'' =>
          simp only [advance, Option.ite_none_right_eq_some] at hadvance
          obtain ⟨rfl, hadvance⟩ := hadvance
          cases hadvance
          rcases hstored with hstored | hstored <;> cases hstored
        | _ => cases hadvance
    | delay t =>
      cases phase with
      | none =>
        cases hadvance
        rcases hstored with hstored | hstored <;> cases hstored
      | some phase => cases phase <;> cases hadvance
    | leave t =>
      cases phase with
      | none =>
        cases hadvance
        rcases hstored with hstored | hstored <;> cases hstored
      | some phase =>
        cases phase with
        | elsewhere =>
          cases hadvance
          rcases hstored with hstored | hstored <;> cases hstored
        | _ => cases hadvance
  · unfold StoredAt at hstored ⊢
    rwa [step_of_ne h ht] at hstored

private theorem step_balance (h : step waits e = some waits') (k : κ) (t : τ) :
    (if e = .request k t then 1 else 0) + (if waits t = some (.pending k) then 1 else 0) =
        (if e = .accept k t then 1 else 0) + (if waits' t = some (.pending k) then 1 else 0) ∧
      (if e = .accept k t then 1 else 0) + (if waits t = some (.handling k) then 1 else 0) =
        (if e = .reply k t then 1 else 0) + (if waits' t = some (.handling k) then 1 else 0) := by
  by_cases ht : t = e.client
  · subst ht
    have hadvance := step_client h
    generalize waits e.client = phase at hadvance ⊢
    generalize waits' e.client = phase' at hadvance ⊢
    cases e with
    | request k' t =>
      cases phase with
      | none =>
        cases hadvance
        by_cases hk : k' = k <;> simp [Event.client, hk]
      | some phase => cases phase <;> cases hadvance
    | accept k' t =>
      cases phase with
      | none => cases hadvance
      | some phase =>
        cases phase with
        | pending k'' =>
          simp only [advance, Option.ite_none_right_eq_some] at hadvance
          obtain ⟨rfl, hadvance⟩ := hadvance
          cases hadvance
          by_cases hk : k'' = k <;> simp [Event.client, hk]
        | _ => cases hadvance
    | reply k' t =>
      cases phase with
      | none => cases hadvance
      | some phase =>
        cases phase with
        | handling k'' =>
          simp only [advance, Option.ite_none_right_eq_some] at hadvance
          obtain ⟨rfl, hadvance⟩ := hadvance
          cases hadvance
          by_cases hk : k'' = k <;> simp [Event.client, hk]
        | _ => cases hadvance
    | delay t =>
      cases phase with
      | none =>
        cases hadvance
        simp
      | some phase => cases phase <;> cases hadvance
    | leave t =>
      cases phase with
      | none =>
        cases hadvance
        simp
      | some phase =>
        cases phase with
        | elsewhere =>
          cases hadvance
          simp
        | _ => cases hadvance
  · rw [step_of_ne h ht]
    have hother : ∀ e' : Event κ τ, e'.client = t → e ≠ e' := by
      rintro e' rfl rfl
      exact ht rfl
    rw [if_neg (hother (.request k t) rfl), if_neg (hother (.accept k t) rfl), if_neg (hother (.reply k t) rfl)]
    exact ⟨rfl, rfl⟩

/-- The requests of a client to a server are those that the server has taken and the one that is pending. -/
theorem run_requests (h : run waits events = some waits') (k : κ) (t : τ) :
    events.count (.request k t) + (if waits t = some (.pending k) then 1 else 0) =
      events.count (.accept k t) + if waits' t = some (.pending k) then 1 else 0 := by
  induction events generalizing waits with
  | nil =>
    cases h
    rfl
  | cons e events ih =>
    unfold run at h
    obtain ⟨waits₁, hstep, hrun⟩ := Option.bind_eq_some_iff.mp h
    have hone := (step_balance hstep k t).1
    have hrest := ih hrun
    simp only [List.count_cons, beq_iff_eq]
    omega

/-- The requests that a server has taken are those that it has answered and the one that it handles. -/
theorem run_accepts (h : run waits events = some waits') (k : κ) (t : τ) :
    events.count (.accept k t) + (if waits t = some (.handling k) then 1 else 0) =
      events.count (.reply k t) + if waits' t = some (.handling k) then 1 else 0 := by
  induction events generalizing waits with
  | nil =>
    cases h
    rfl
  | cons e events ih =>
    unfold run at h
    obtain ⟨waits₁, hstep, hrun⟩ := Option.bind_eq_some_iff.mp h
    have hone := (step_balance hstep k t).2
    have hrest := ih hrun
    simp only [List.count_cons, beq_iff_eq]
    omega

end SweepDSEmu.RequestCycle
