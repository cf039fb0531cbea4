import Mathlib.Algebra.Group.Nat.Defs
import Mathlib.Tactic.Common
import Mathlib.Algebra.Group.Int.Defs

/-!
# Outcomes of computations that can fail

`Outcome E Q` holds of a computation whose value satisfies `Q` and whose error satisfies `E`.
-/

namespace SweepDSEmu

variable {ε α β : Type} {E : ε → Prop}

/-- The value of a computation satisfies `Q`, its error `E`. -/
def Outcome (E : ε → Prop) (Q : α → Prop) : Except ε α → Prop
  | .ok a => Q a
  | .error e => E e

theorem ok_bind (a : α) (f : α → Except ε β) : (Except.ok a >>= f) = f a := rfl

theorem mapError_ok {ε' : Type} (g : ε → ε') (a : α) : (Except.ok a).mapError g = .ok a := rfl

variable {f : α → Except ε β}

theorem ok_of_bind {x : Except ε α} {b : β} (h : x >>= f = .ok b) : ∃ a, x = .ok a ∧ f a = .ok b := by
  cases x with
  | ok a => exact ⟨a, rfl, h⟩
  | error e => cases h

theorem mapM_ok {Q : β → Prop} {l : List α} (h : ∀ a ∈ l, ∃ b, f a = .ok b ∧ Q b) :
    ∃ l', l.mapM f = .ok l' ∧ ∀ b ∈ l', Q b := by
  induction l with
  | nil => exact ⟨[], rfl, by simp⟩
  | cons a l ih =>
    obtain ⟨b, hb, hQ⟩ := h a List.mem_cons_self
    obtain ⟨l', hl', hQ'⟩ := ih fun a' ha' => h a' (List.mem_cons_of_mem _ ha')
    refine ⟨b :: l', ?_, ?_⟩
    · rw [List.mapM_cons, hb, hl']
      rfl
    · intro b' hb'
      rcases List.mem_cons.mp hb' with rfl | hb'
      · exact hQ
      · exact hQ' b' hb'

theorem mapM_eq_map {g : α → β} {l : List α} (h : ∀ a ∈ l, f a = .ok (g a)) : l.mapM f = .ok (l.map g) := by
  induction l with
  | nil => rfl
  | cons a l ih =>
    rw [List.mapM_cons, h a List.mem_cons_self, ok_bind, ih fun a' ha' => h a' (List.mem_cons_of_mem _ ha'), ok_bind]
    rfl

theorem mapM_error {l : List α} {e : ε} (h : l.mapM f = .error e) : ∃ a ∈ l, f a = .error e := by
  induction l with
  | nil => cases h
  | cons a l ih =>
    rw [List.mapM_cons] at h
    cases hf : f a with
    | error e' =>
      rw [hf] at h
      cases h
      exact ⟨a, List.mem_cons_self, hf⟩
    | ok b =>
      rw [hf] at h
      cases hl : l.mapM f with
      | error e' =>
        rw [ok_bind, hl] at h
        cases h
        obtain ⟨a', ha', hfa'⟩ := ih hl
        exact ⟨a', List.mem_cons_of_mem _ ha', hfa'⟩
      | ok l' =>
        rw [ok_bind, hl] at h
        cases h

/-- The value of a computation that returns satisfies `Q`. -/
abbrev Returns (Q : α → Prop) : Except ε α → Prop := Outcome (fun _ => True) Q

namespace Outcome

variable {x : Except ε α} {Q : α → Prop}

theorem bind {P : α → Prop} {Q : β → Prop} {f : α → Except ε β} (hx : Outcome E P x)
    (hf : ∀ a, P a → Outcome E Q (f a)) : Outcome E Q (x >>= f) := by
  cases x with
  | ok a => exact hf a hx
  | error e => exact hx

theorem mono {P Q : α → Prop} (hx : Outcome E P x) (h : ∀ a, P a → Q a) : Outcome E Q x := by
  cases x with
  | ok a => exact h a hx
  | error e => exact hx

theorem error {e : ε} (he : E e) : Outcome E Q (.error e) := he

theorem weaken {F : ε → Prop} (hx : Outcome E Q x) (h : ∀ e, E e → F e) : Outcome F Q x := by
  cases x with
  | ok a => exact hx
  | error e => exact h e hx

theorem mapError {ε' : Type} {F : ε' → Prop} {g : ε → ε'} (hx : Outcome E Q x)
    (h : ∀ e, E e → F (g e)) : Outcome F Q (x.mapError g) := by
  cases x with
  | ok a => exact hx
  | error e => exact h e hx

theorem map {P : α → Prop} {Q : β → Prop} {f : α → β} (hx : Outcome E P x) (h : ∀ a, P a → Q (f a)) :
    Outcome E Q (x.map f) := by
  cases x with
  | ok a => exact h a hx
  | error e => exact hx

theorem ite {c : Prop} [Decidable c] {x y : Except ε α} (hx : c → Outcome E Q x)
    (hy : ¬ c → Outcome E Q y) : Outcome E Q (if c then x else y) := by
  by_cases hc : c
  · rw [if_pos hc]
    exact hx hc
  · rw [if_neg hc]
    exact hy hc

theorem value (hx : Outcome E Q x) : Outcome E (fun a => x = .ok a ∧ Q a) x := by
  cases x with
  | ok a => exact ⟨rfl, hx⟩
  | error e => exact hx

theorem intro (hok : ∀ a, x = .ok a → Q a) (herr : ∀ e, x = .error e → E e) : Outcome E Q x := by
  cases x with
  | ok a => exact hok a rfl
  | error e => exact herr e rfl

theorem exists_ok (hx : Outcome (fun _ => False) Q x) : ∃ a, x = .ok a ∧ Q a := by
  cases x with
  | ok a => exact ⟨a, rfl, hx⟩
  | error e => exact hx.elim

theorem eq_ok {a : α} (hx : Outcome (fun _ => False) (fun b => b = a) x) : x = .ok a := by
  obtain ⟨b, hb, rfl⟩ := hx.exists_ok
  exact hb

theorem of_ok (hx : ∃ a, x = .ok a ∧ Q a) : Outcome E Q x := by
  obtain ⟨a, rfl, ha⟩ := hx
  exact ha

theorem foldlM {P : β → Prop} {f : β → α → Except ε β} {l : List α} {b : β} (hb : P b)
    (h : ∀ b, ∀ a ∈ l, P b → Outcome E P (f b a)) : Outcome E P (l.foldlM f b) := by
  induction l generalizing b with
  | nil => exact hb
  | cons a l ih =>
    refine bind (h b a List.mem_cons_self hb) ?_
    intro b' hb'
    exact ih hb' fun b a ha => h b a (List.mem_cons_of_mem _ ha)

/-- A loop whose turns keep a property of the value and of the elements that are left. -/
theorem foldlM_rest {P : List α → β → Prop} {f : β → α → Except ε β} {l : List α} {b : β} (hb : P l b)
    (h : ∀ b a l, P (a :: l) b → Outcome E (P l) (f b a)) : Outcome E (P []) (l.foldlM f b) := by
  induction l generalizing b with
  | nil => exact hb
  | cons a l ih =>
    refine bind (h b a l hb) ?_
    intro b' hb'
    exact ih hb'

end Outcome

end SweepDSEmu
