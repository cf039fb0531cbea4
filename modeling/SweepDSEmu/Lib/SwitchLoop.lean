import Mathlib.Data.List.Nodup

/-!
# A switch in a loop

A function whose body is a loop around a switch on a label.  The blocks of the switch fall through; they are left by
returning a value, or with a label where the loop goes on.  Such a label is where the program jumps to, or where it just
goes on because the next block is another one: `Leave.jumps` and `Leave.goes`.

`dispatches_iff` compares such a switch with a relation that says what is done from each label.
-/

namespace SweepDSEmu.SwitchLoop

inductive Leave where
  | falls
  | returns (value : Bool)
  | jumps (label : Nat)
  | goes (label : Nat)
  deriving DecidableEq

inductive Result where
  | returned (value : Bool)
  | jumped (label : Nat)
  deriving DecidableEq

variable {α σ : Type*} (runs : α → σ → σ → Leave → Prop)

def Sequence : List α → σ → σ → Leave → Prop
  | [], s, s', leave => s' = s ∧ leave = .falls
  | a :: rest, s, s', leave => ∃ s₁ first, runs a s s₁ first ∧
      ((first = .falls ∧ Sequence rest s₁ s' leave) ∨ (first ≠ .falls ∧ s' = s₁ ∧ leave = first))

def FallsThrough : List (Nat × List α) → σ → σ → Leave → Prop
  | [], s, s', leave => s' = s ∧ leave = .returns false
  | (_, block) :: rest, s, s', leave => ∃ s₁ first, Sequence runs block s s₁ first ∧
      ((first = .falls ∧ FallsThrough rest s₁ s' leave) ∨ (first ≠ .falls ∧ s' = s₁ ∧ leave = first))

def entered (cases : List (Nat × List α)) (label : Nat) : List (Nat × List α) :=
  cases.dropWhile fun c => decide (c.1 ≠ label)

inductive Dispatches (cases : List (Nat × List α)) : Nat → σ → σ → Result → Prop where
  | returns {label : Nat} {s s' : σ} {value : Bool}
      (h : FallsThrough runs (entered cases label) s s' (.returns value)) :
      Dispatches cases label s s' (.returned value)
  | jumps {label dest : Nat} {s s' : σ} (h : FallsThrough runs (entered cases label) s s' (.jumps dest)) :
      Dispatches cases label s s' (.jumped dest)
  | goes {label next : Nat} {s s₁ s' : σ} {result : Result}
      (h : FallsThrough runs (entered cases label) s s₁ (.goes next)) (hnext : Dispatches cases next s₁ s' result) :
      Dispatches cases label s s' result

variable {runs}

theorem sequence_append {as bs : List α} {s s' : σ} {leave : Leave} :
    Sequence runs (as ++ bs) s s' leave ↔ ∃ s₁ first, Sequence runs as s s₁ first ∧
      ((first = .falls ∧ Sequence runs bs s₁ s' leave) ∨ (first ≠ .falls ∧ s' = s₁ ∧ leave = first)) := by
  induction as generalizing s with
  | nil => simp [Sequence]
  | cons a as ih =>
    constructor
    · rintro ⟨s₁, first, ha, ⟨rfl, hrest⟩ | ⟨hne, rfl, rfl⟩⟩
      · obtain ⟨s₂, second, has, hbs⟩ := ih.mp hrest
        exact ⟨s₂, second, ⟨s₁, .falls, ha, .inl ⟨rfl, has⟩⟩, hbs⟩
      · exact ⟨s', leave, ⟨s', leave, ha, .inr ⟨hne, rfl, rfl⟩⟩, .inr ⟨hne, rfl, rfl⟩⟩
    · rintro ⟨s₂, second, ⟨s₁, first, ha, ⟨rfl, has⟩ | ⟨hne, rfl, rfl⟩⟩, hbs⟩
      · exact ⟨s₁, .falls, ha, .inl ⟨rfl, ih.mpr ⟨s₂, second, has, hbs⟩⟩⟩
      · rcases hbs with ⟨hfalls, -⟩ | ⟨-, rfl, rfl⟩
        · exact absurd hfalls hne
        · exact ⟨s', leave, ha, .inr ⟨hne, rfl, rfl⟩⟩

/-- What comes after a block that was left: the next block, what returned, or the block where the loop goes on. -/
def After (segment : Nat → σ → σ → Result → Prop) (rest : List (Nat × List α)) (s s' : σ) (result : Result) :
    Leave → Prop
  | .falls =>
    match rest with
    | [] => s' = s ∧ result = .returned false
    | (next, _) :: _ => segment next s s' result
  | .returns value => s' = s ∧ result = .returned value
  | .jumps dest => s' = s ∧ result = .jumped dest
  | .goes next => segment next s s' result

def CutCases (runs : α → σ → σ → Leave → Prop) (segment : Nat → σ → σ → Result → Prop) : List (Nat × List α) → Prop
  | [] => True
  | (label, block) :: rest =>
    (∀ s s₁ next, Sequence runs block s s₁ (.goes next) → next ∈ rest.map Prod.fst) ∧
      (∀ s s' result, segment label s s' result ↔
        ∃ s₁ leave, Sequence runs block s s₁ leave ∧ After segment rest s₁ s' result leave) ∧ CutCases runs segment rest

section Switch

variable {cases : List (Nat × List α)}

theorem entered_append {front rest : List (Nat × List α)} {label : Nat} {block : List α}
    (hnodup : ((front ++ (label, block) :: rest).map Prod.fst).Nodup) :
    entered (front ++ (label, block) :: rest) label = (label, block) :: rest := by
  have hfront : ∀ c ∈ front, decide (c.1 ≠ label) = true := by
    intro c hc
    rw [List.map_append, List.nodup_append] at hnodup
    have hne := hnodup.2.2 c.1 (List.mem_map_of_mem hc) label (by simp)
    exact decide_eq_true hne
  rw [entered, List.dropWhile_append_of_pos hfront, List.dropWhile_cons_of_neg (by simp)]

theorem dispatches_append {front rest : List (Nat × List α)} {label : Nat} {block : List α}
    (hcases : front ++ (label, block) :: rest = cases) (hnodup : (cases.map Prod.fst).Nodup) {s s' : σ}
    {result : Result} :
    Dispatches runs cases label s s' result ↔ ∃ s₁ leave, Sequence runs block s s₁ leave ∧
      After (Dispatches runs cases) rest s₁ s' result leave := by
  have hentered : entered cases label = (label, block) :: rest := by
    rw [← hcases]
    exact entered_append (hcases ▸ hnodup)
  -- the next block is entered at its own label, too
  have hnext (next : Nat) (b : List α) (rest' : List (Nat × List α)) (hrest : rest = (next, b) :: rest') :
      entered cases next = rest := by
    have hcases' : (front ++ [(label, block)]) ++ (next, b) :: rest' = cases := by
      rw [← hcases, hrest]
      simp
    rw [← hcases', hrest]
    exact entered_append (hcases' ▸ hnodup)
  constructor
  · intro h
    cases h with
    | returns h =>
      rw [hentered] at h
      obtain ⟨s₁, leave, hblock, ⟨rfl, hrest⟩ | ⟨-, rfl, rfl⟩⟩ := h
      · refine ⟨s₁, .falls, hblock, ?_⟩
        cases rest with
        | nil =>
          obtain ⟨rfl, hvalue⟩ := hrest
          cases hvalue
          exact ⟨rfl, rfl⟩
        | cons c rest' => exact .returns (by rw [hnext c.1 c.2 rest' rfl]; exact hrest)
      · exact ⟨_, _, hblock, rfl, rfl⟩
    | jumps h =>
      rw [hentered] at h
      obtain ⟨s₁, leave, hblock, ⟨rfl, hrest⟩ | ⟨-, rfl, rfl⟩⟩ := h
      · refine ⟨s₁, .falls, hblock, ?_⟩
        cases rest with
        | nil => cases hrest.2
        | cons c rest' => exact .jumps (by rw [hnext c.1 c.2 rest' rfl]; exact hrest)
      · exact ⟨_, _, hblock, rfl, rfl⟩
    | goes h hgoes =>
      rw [hentered] at h
      obtain ⟨s₁, leave, hblock, ⟨rfl, hrest⟩ | ⟨-, rfl, rfl⟩⟩ := h
      · refine ⟨s₁, .falls, hblock, ?_⟩
        cases rest with
        | nil => cases hrest.2
        | cons c rest' => exact .goes (by rw [hnext c.1 c.2 rest' rfl]; exact hrest) hgoes
      · exact ⟨_, _, hblock, hgoes⟩
  · rintro ⟨s₁, leave, hblock, hafter⟩
    -- what falls through the rest falls through the block and the rest
    have hfalls {s' : σ} {last : Leave} (hleave : leave = .falls) (hrest : FallsThrough runs rest s₁ s' last) :
        FallsThrough runs (entered cases label) s s' last := by
      rw [hentered]
      exact ⟨s₁, leave, hblock, .inl ⟨hleave, hrest⟩⟩
    have hleft {last : Leave} (hleave : leave = last) (hne : last ≠ .falls) :
        FallsThrough runs (entered cases label) s s₁ last := by
      rw [hentered]
      exact ⟨s₁, leave, hblock, .inr ⟨hleave ▸ hne, rfl, hleave.symm⟩⟩
    cases leave with
    | falls =>
      cases rest with
      | nil =>
        obtain ⟨rfl, rfl⟩ := hafter
        exact .returns (hfalls rfl ⟨rfl, rfl⟩)
      | cons c rest' =>
        cases hafter with
        | returns h => exact .returns (hfalls rfl (by rw [hnext c.1 c.2 rest' rfl] at h; exact h))
        | jumps h => exact .jumps (hfalls rfl (by rw [hnext c.1 c.2 rest' rfl] at h; exact h))
        | goes h hgoes => exact .goes (hfalls rfl (by rw [hnext c.1 c.2 rest' rfl] at h; exact h)) hgoes
    | returns value =>
      obtain ⟨rfl, rfl⟩ := hafter
      exact .returns (hleft rfl (by simp))
    | jumps dest =>
      obtain ⟨rfl, rfl⟩ := hafter
      exact .jumps (hleft rfl (by simp))
    | goes next => exact .goes (hleft rfl (by simp)) hafter

theorem dispatches_iff {segment : Nat → σ → σ → Result → Prop} (hnodup : (cases.map Prod.fst).Nodup)
    (hcut : CutCases runs segment cases) {label : Nat} (hlabel : label ∈ cases.map Prod.fst) (s s' : σ) (result : Result) :
    Dispatches runs cases label s s' result ↔ segment label s s' result := by
  suffices h : ∀ rest front, front ++ rest = cases → CutCases runs segment rest → ∀ label ∈ rest.map Prod.fst,
      ∀ s s' result, Dispatches runs cases label s s' result ↔ segment label s s' result from
    h cases [] rfl hcut label hlabel s s' result
  intro rest
  induction rest with
  | nil =>
    intro front hcases hcut label hlabel
    cases hlabel
  | cons c rest ih =>
    intro front hcases hcut label hlabel s s' result
    obtain ⟨hgoes, hblock, hcut⟩ := hcut
    have hrest := ih (front ++ [c]) (by rw [← hcases]; simp) hcut
    rcases List.mem_cons.mp hlabel with rfl | hlabel
    · rw [dispatches_append hcases hnodup, hblock]
      apply exists_congr
      intro s₁
      apply exists_congr
      intro leave
      apply and_congr_right
      intro hleave
      cases leave with
      | falls =>
        cases rest with
        | nil => rfl
        | cons n rest' => exact hrest n.1 (List.mem_map_of_mem (List.mem_cons_self ..)) s₁ s' result
      | returns value => rfl
      | jumps dest => rfl
      | goes next => exact hrest next (hgoes s s₁ next hleave) s₁ s' result
    · exact hrest label hlabel s s' result

end Switch

end SweepDSEmu.SwitchLoop
