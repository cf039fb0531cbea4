import SweepDSEmu.VideoCore.ShaderGenerator
import SweepDSEmu.VideoCore.ShaderSubroutines

/-!
# The return point in generated code

The code that is generated for a subroutine cuts what runs straight on from a label at the next label, wherever that is.

* A line does what its instruction does, and the lines of a range what is to be done there: `compileInstr_runs`,
  `compileUntil_compiled`.
* Where no offset behind the return point is run to, or the return point itself is not, the cases of the switch do from
  each label what is to be done from there: `compileCases_from`, `generate_keeps`.
* A label behind the return point makes the code in front run past it: `outerJump_passes`.
-/

namespace SweepDSEmu.VideoCore.Shader

open SwitchLoop

variable {handled : Nat → Bool} {program : ProgramCode} {subroutines : List Subroutine}

/-- How a line is left when the instruction goes on there. -/
def Next.leave : Next → Leave
  | .offset _ => .falls
  | .ended => .returns true
  | .jumped dest => .jumps dest

theorem nextOf_leave (ended : Bool) (after : Nat) : (nextOf ended after).leave = leaveOf ended := by
  cases ended <;> rfl

theorem nextOf_eq_offset {ended : Bool} {after next : Nat} (h : nextOf ended after = .offset next) :
    ended = false ∧ after = next := by
  cases ended with
  | false =>
    cases h
    exact ⟨rfl, rfl⟩
  | true => cases h

theorem getSubroutine_ok {range : Range} {s : Subroutine} (h : getSubroutine subroutines range = .ok s) :
    subroutines.find? (fun s => s.range = range) = some s ∧ s ∈ subroutines ∧ s.range = range := by
  unfold getSubroutine at h
  split at h
  case h_1 s' hfind =>
    cases h
    exact ⟨hfind, List.mem_of_find?_eq_some hfind, by simpa using List.find?_some hfind⟩
  case h_2 => cases h

section

variable {σ : Type*} {m : Machine σ} {function : Range → σ → σ → Bool → Prop}

theorem callRuns_eq (hexits : RightExits subroutines function) {s : Subroutine} (hs : s ∈ subroutines) :
    callRuns function s = function s.range := by
  obtain ⟨hne, hvalue⟩ := hexits s hs
  funext st st' ended
  apply propext
  unfold callRuns
  split
  case h_1 hend =>
    constructor
    · rintro ⟨rfl, value, h⟩
      rw [← (hvalue _ _ _ h).1 hend]
      exact h
    · exact fun h => ⟨(hvalue _ _ _ h).1 hend, ended, h⟩
  case h_2 => rfl
  case h_3 hreturn =>
    constructor
    · rintro ⟨rfl, value, h⟩
      rw [← (hvalue _ _ _ h).2 hreturn]
      exact h
    · exact fun h => ⟨(hvalue _ _ _ h).2 hreturn, ended, h⟩
  case h_4 hundetermined => exact absurd hundetermined hne

private theorem calls_iff {call : Bool → Prop} {after : Nat} {leave : Leave} :
    (∃ ended, call ended ∧ leave = leaveOf ended) ↔
      ∃ next : Next, (∃ ended, call ended ∧ next = nextOf ended after) ∧ leave = next.leave := by
  constructor
  · rintro ⟨ended, hcall, rfl⟩
    exact ⟨nextOf ended after, ⟨ended, hcall, rfl⟩, (nextOf_leave ended after).symm⟩
  · rintro ⟨next, ⟨ended, hcall, rfl⟩, rfl⟩
    exact ⟨ended, hcall, nextOf_leave ended after⟩

private theorem goesOn_iff {P : Prop} {next : Next} {leave : Leave} :
    (P ∧ leave = next.leave) ↔ ∃ next' : Next, (P ∧ next' = next) ∧ leave = next'.leave := by
  constructor
  · rintro ⟨h, rfl⟩
    exact ⟨next, ⟨h, rfl⟩, rfl⟩
  · rintro ⟨next, ⟨h, rfl⟩, rfl⟩
    exact ⟨h, rfl⟩

theorem compileInstr_runs (m : Machine σ) (hexits : RightExits subroutines function) {offset compiled : Nat}
    {line : Line}
    (h : compileInstr handled program subroutines offset = .ok (line, compiled)) :
    ∃ hoffset : offset < programEnd, ∀ s s' leave, line.Runs m function s s' leave ↔
      ∃ next, (program ⟨offset, hoffset⟩).Runs m function offset s s' next ∧ leave = next.leave := by
  unfold compileInstr at h
  split at h
  case isFalse => cases h
  case isTrue hoffset =>
    refine ⟨hoffset, ?_⟩
    intro s s' leave
    unfold Instruction.Runs
    dsimp only at h ⊢
    split at h
    case h_1 =>
      cases h
      rw [← goesOn_iff]
      rfl
    case h_2 | h_3 =>
      cases h
      dsimp only [Line.Runs]
      rw [← goesOn_iff]
      split <;> rfl
    case h_4 =>
      split at h
      case h_1 => cases h
      case h_2 sub hsub =>
        cases h
        obtain ⟨-, hmem, hrange⟩ := getSubroutine_ok hsub
        dsimp only [Line.Runs]
        rw [if_pos (.inl rfl), callRuns_eq hexits hmem, hrange]
        exact calls_iff
    case h_5 | h_6 =>
      split at h
      case h_1 => cases h
      case h_2 sub hsub =>
        cases h
        obtain ⟨-, hmem, hrange⟩ := getSubroutine_ok hsub
        dsimp only [Line.Runs]
        rw [callRuns_eq hexits hmem, hrange]
        by_cases htest : m.test offset s = true
        · simp only [if_pos htest, if_pos (Or.inr htest)]
          exact calls_iff
        · simp only [if_neg htest, if_neg (show ¬ (true = false ∨ m.test offset s = true) by simpa using htest)]
          rw [← goesOn_iff]
          rfl
    case h_7 | h_8 =>
      split at h
      case h_1 => cases h
      case h_2 ifSub hifSub =>
        obtain ⟨-, hmem, hrange⟩ := getSubroutine_ok hifSub
        split at h
        case isTrue hnum =>
          split at h
          case h_1 => cases h
          case h_2 elseSub helseSub =>
            cases h
            obtain ⟨-, hmem', hrange'⟩ := getSubroutine_ok helseSub
            dsimp only [Line.Runs]
            rw [callRuns_eq hexits hmem, hrange, callRuns_eq hexits hmem', hrange']
            by_cases htest : m.test offset s = true
            · simp only [if_pos htest]
              exact calls_iff
            · simp only [if_neg htest, if_pos hnum]
              exact calls_iff
        case isFalse hnum =>
          cases h
          dsimp only [Line.Runs]
          rw [callRuns_eq hexits hmem, hrange]
          by_cases htest : m.test offset s = true
          · simp only [if_pos htest]
            exact calls_iff
          · simp only [if_neg htest, if_neg hnum]
            rw [← goesOn_iff]
            rfl
    case h_9 =>
      split at h
      case h_1 => cases h
      case h_2 loopSub hloopSub =>
        cases h
        obtain ⟨-, hmem, hrange⟩ := getSubroutine_ok hloopSub
        dsimp only [Line.Runs]
        rw [callRuns_eq hexits hmem, hrange]
        exact calls_iff
    case h_10 id =>
      split at h
      case isFalse => cases h
      case isTrue =>
        cases h
        rw [← goesOn_iff]
        rfl

theorem loopRuns_ne {body : σ → σ → Bool → Prop} {offset : Nat} (hbody : ∀ s s', ¬ body s s' false) {times : Nat}
    {s s' : σ} : ¬ loopRuns m body offset (times + 1) s s' false := by
  rintro ⟨s₁, first, hfirst, hrest⟩
  cases first with
  | false => exact hbody s s₁ hfirst
  | true =>
    cases hrest.2

theorem runs_offset (hexits : RightExits subroutines function) {offset next : Nat} {hoffset : offset < programEnd}
    {s s' : σ} (h : (program ⟨offset, hoffset⟩).Runs m function offset s s' (.offset next)) :
    nextOffset program subroutines offset = some next := by
  -- a branch that always ends the program does not return
  have hends {range : Range} (hrange : (subroutines.find? fun s => s.range = range).map Subroutine.exitMethod =
      some .alwaysEnd) (s s' : σ) : ¬ function range s s' false := by
    obtain ⟨sub, hfind, hexit⟩ := Option.map_eq_some_iff.mp hrange
    intro hfunction
    have heq : sub.range = range := by simpa using List.find?_some hfind
    rw [← heq] at hfunction
    cases ((hexits sub (List.mem_of_find?_eq_some hfind)).2 s s' false hfunction).1 hexit
  unfold nextOffset flowAt
  rw [dif_pos hoffset]
  unfold Instruction.Runs at h
  unfold Instruction.flow
  cases hop : (program ⟨offset, hoffset⟩).opcode with
  | endProgram =>
    simp only [hop] at h
    cases h.2
  | jmpc | jmpu =>
    simp only [hop] at h ⊢
    obtain ⟨-, hnext⟩ := h
    split at hnext
    · cases hnext
    · cases hnext
      rfl
  | call =>
    simp only [hop] at h ⊢
    obtain ⟨ended, hcall, hnext⟩ := h
    obtain ⟨rfl, rfl⟩ := nextOf_eq_offset hnext.symm
    rw [if_neg]
    intro halways
    exact hends (by simpa [alwaysEnds] using halways) s s' hcall
  | callc | callu =>
    simp only [hop] at h ⊢
    rw [if_neg (by simp [alwaysEnds])]
    split at h
    · obtain ⟨ended, hcall, hnext⟩ := h
      rw [(nextOf_eq_offset hnext.symm).2]
    · cases h.2
      rfl
  | ifc | ifu =>
    simp only [hop] at h ⊢
    have hafter : (program ⟨offset, hoffset⟩).destOffset + (program ⟨offset, hoffset⟩).numInstructions = next := by
      split at h
      · obtain ⟨ended, -, hnext⟩ := h
        exact (nextOf_eq_offset hnext.symm).2
      · split at h
        · obtain ⟨ended, -, hnext⟩ := h
          exact (nextOf_eq_offset hnext.symm).2
        · cases h.2
          rfl
    subst hafter
    rw [if_neg]
    intro halways
    simp only [alwaysEnds, List.all_cons, List.all_nil, Bool.and_true, Bool.and_eq_true, decide_eq_true_eq] at halways
    obtain ⟨hif, helse⟩ := halways
    split at h
    · obtain ⟨ended, hcall, hnext⟩ := h
      rw [(nextOf_eq_offset hnext.symm).1] at hcall
      exact hends hif s s' hcall
    · split at h
      case isTrue hnum =>
        obtain ⟨ended, hcall, hnext⟩ := h
        rw [(nextOf_eq_offset hnext.symm).1] at hcall
        rw [if_pos hnum] at helse
        exact hends (by simpa using helse) s s' hcall
      case isFalse hnum =>
        rw [if_neg hnum] at helse
        cases helse
  | loop =>
    simp only [hop] at h ⊢
    obtain ⟨ended, hcall, hnext⟩ := h
    obtain ⟨rfl, rfl⟩ := nextOf_eq_offset hnext.symm
    rw [if_neg]
    intro halways
    exact loopRuns_ne (hends (by simpa [alwaysEnds] using halways)) hcall
  | other id =>
    simp only [hop] at h ⊢
    cases h.2
    rfl

theorem runs_jumped {offset dest : Nat} {hoffset : offset < programEnd} {s s' : σ}
    (h : (program ⟨offset, hoffset⟩).Runs m function offset s s' (.jumped dest)) :
    flowAt program offset = some (some (.jump dest)) := by
  have hnextOf {ended : Bool} {after : Nat} : Next.jumped dest ≠ nextOf ended after := by cases ended <;> simp [nextOf]
  unfold flowAt
  rw [dif_pos hoffset]
  unfold Instruction.Runs at h
  unfold Instruction.flow
  cases hop : (program ⟨offset, hoffset⟩).opcode with
  | jmpc | jmpu =>
    simp only [hop] at h ⊢
    obtain ⟨-, hnext⟩ := h
    split at hnext
    · cases hnext
      rfl
    · cases hnext
  | endProgram | other id =>
    simp only [hop] at h
    cases h.2
  | call | loop =>
    simp only [hop] at h
    obtain ⟨ended, -, hnext⟩ := h
    exact absurd hnext hnextOf
  | callc | callu =>
    simp only [hop] at h
    split at h
    · obtain ⟨ended, -, hnext⟩ := h
      exact absurd hnext hnextOf
    · cases h.2
  | ifc | ifu =>
    simp only [hop] at h
    split at h
    · obtain ⟨ended, -, hnext⟩ := h
      exact absurd hnext hnextOf
    · split at h
      · obtain ⟨ended, -, hnext⟩ := h
        exact absurd hnext hnextOf
      · cases h.2

theorem compileInstr_next {offset compiled : Nat} {line : Line}
    (h : compileInstr handled program subroutines offset = .ok (line, compiled)) :
    compiled = (nextOffset program subroutines offset).getD programEnd := by
  unfold compileInstr at h
  split at h
  case isFalse => cases h
  case isTrue hoffset =>
    unfold nextOffset flowAt
    rw [dif_pos hoffset]
    unfold Instruction.flow
    cases hop : (program ⟨offset, hoffset⟩).opcode with
    | endProgram | jmpc | jmpu =>
      simp only [hop] at h ⊢
      cases h
      rfl
    | call =>
      simp only [hop] at h ⊢
      split at h
      case h_1 => cases h
      case h_2 sub hsub =>
        cases h
        obtain ⟨hfind, -⟩ := getSubroutine_ok hsub
        by_cases hexit : sub.exitMethod = .alwaysEnd <;> simp [alwaysEnds, hfind, hexit]
    | callc | callu =>
      simp only [hop] at h ⊢
      split at h
      case h_1 => cases h
      case h_2 sub hsub =>
        cases h
        simp [alwaysEnds]
    | ifc | ifu =>
      simp only [hop] at h ⊢
      split at h
      case h_1 => cases h
      case h_2 ifSub hifSub =>
        obtain ⟨hfind, -⟩ := getSubroutine_ok hifSub
        split at h
        case isTrue hnum =>
          split at h
          case h_1 => cases h
          case h_2 elseSub helseSub =>
            cases h
            obtain ⟨hfind', -⟩ := getSubroutine_ok helseSub
            by_cases hexit : ifSub.exitMethod = .alwaysEnd <;> by_cases hexit' : elseSub.exitMethod = .alwaysEnd <;>
              simp [alwaysEnds, hnum, hfind, hfind', hexit, hexit']
        case isFalse hnum =>
          cases h
          simp [alwaysEnds, not_not.mp hnum]
    | loop =>
      simp only [hop] at h ⊢
      split at h
      case h_1 => cases h
      case h_2 loopSub hloopSub =>
        cases h
        obtain ⟨hfind, -⟩ := getSubroutine_ok hloopSub
        by_cases hexit : loopSub.exitMethod = .alwaysEnd <;> simp [alwaysEnds, hfind, hexit]
    | other id =>
      simp only [hop] at h ⊢
      split at h
      case isFalse => cases h
      case isTrue =>
        cases h
        rfl

variable {labels : Finset Nat} {rest : List (Nat × List Line)} {lines : List Line} {compileEnd stop : Nat}
  {sub : Subroutine}

theorem segment_stop {s s' : σ} {result : Result} :
    Segment m function program stop stop s s' result ↔ s' = s ∧ result = .returned false := by
  constructor
  · intro h
    cases h with
    | returned => exact ⟨rfl, rfl⟩
    | next _ hstop => exact absurd rfl hstop
    | ended _ hstop => exact absurd rfl hstop
    | jumped _ hstop => exact absurd rfl hstop
  · rintro ⟨rfl, rfl⟩
    exact .returned _

theorem segment_instr {offset stop : Nat} (hoffset : offset < programEnd) (hstop : offset ≠ stop) {s s' : σ}
    {result : Result} :
    Segment m function program stop offset s s' result ↔
      ∃ s₁ next, (program ⟨offset, hoffset⟩).Runs m function offset s s₁ next ∧
        match next with
        | .offset q => Segment m function program stop q s₁ s' result
        | .ended => s' = s₁ ∧ result = .returned true
        | .jumped dest => s' = s₁ ∧ result = .jumped dest := by
  constructor
  · intro h
    cases h with
    | returned => exact absurd rfl hstop
    | next _ _ hinstr hnext => exact ⟨_, _, hinstr, hnext⟩
    | ended _ _ hinstr => exact ⟨_, _, hinstr, rfl, rfl⟩
    | jumped _ _ hinstr => exact ⟨_, _, hinstr, rfl, rfl⟩
  · rintro ⟨s₁, next, hinstr, hnext⟩
    cases next with
    | offset q => exact .next hoffset hstop hinstr hnext
    | ended =>
      obtain ⟨rfl, rfl⟩ := hnext
      exact .ended hoffset hstop hinstr
    | jumped dest =>
      obtain ⟨rfl, rfl⟩ := hnext
      exact .jumped hoffset hstop hinstr

def Behind (segment : Nat → σ → σ → Result → Prop) (compileEnd : Nat) (s s' : σ) (result : Result) : Leave → Prop
  | .falls => segment compileEnd s s' result
  | .returns value => s' = s ∧ result = .returned value
  | .jumps dest => s' = s ∧ result = .jumped dest
  | .goes _ => False

structure Compiled (m : Machine σ) (function : Range → σ → σ → Bool → Prop) (program : ProgramCode)
    (subroutines : List Subroutine) (sub : Subroutine) (stop offset : Nat) (lines : List Line) (compileEnd : Nat) :
    Prop where
  stop_le : stop ≤ compileEnd
  entered : compileEnd ≠ programEnd → Entered program subroutines sub compileEnd
  falls : ∀ s s', Sequence (Line.Runs m function) lines s s' .falls → Entered program subroutines sub compileEnd
  goes : ∀ s s' next, ¬ Sequence (Line.Runs m function) lines s s' (.goes next)
  jumps : ∀ s s' dest, Sequence (Line.Runs m function) lines s s' (.jumps dest) →
    ∃ q, Entered program subroutines sub q ∧ flowAt program q = some (some (.jump dest))
  segment : ∀ s s' result, Segment m function program sub.range.2 offset s s' result ↔
    ∃ s₁ leave, Sequence (Line.Runs m function) lines s s₁ leave ∧
      Behind (Segment m function program sub.range.2) compileEnd s₁ s' result leave

theorem Entered.next {s : Subroutine} {offset next : Nat} (h : Entered program subroutines s offset)
    (hstop : offset ≠ s.range.2) (hnext : nextOffset program subroutines offset = some next) :
    Entered program subroutines s next := by
  obtain ⟨label, hlabel, hpath⟩ := h
  exact ⟨label, hlabel, hpath.tail ⟨hstop, hnext⟩⟩

theorem compileUntil_programEnd {stop fuel : Nat}
    (h : compileUntil handled program subroutines stop fuel programEnd = .ok (lines, compileEnd)) :
    compileEnd = programEnd ∧ stop ≤ programEnd := by
  cases fuel with
  | zero => cases h
  | succ fuel =>
    rw [compileUntil] at h
    split at h
    case isTrue =>
      cases h
    case isFalse hge =>
      cases h
      exact ⟨rfl, not_lt.mp hge⟩

theorem compileUntil_end {stop fuel offset : Nat}
    (h : compileUntil handled program subroutines stop fuel offset = .ok (lines, compileEnd))
    (hentered : Entered program subroutines sub offset)
    (hstop : ∀ q, Entered program subroutines sub q → q < stop → q ≠ sub.range.2) :
    stop ≤ compileEnd ∧ (compileEnd ≠ programEnd → Entered program subroutines sub compileEnd) := by
  induction fuel generalizing offset lines with
  | zero => cases h
  | succ fuel ih =>
    rw [compileUntil] at h
    split at h
    case isFalse hge =>
      cases h
      exact ⟨not_lt.mp hge, fun _ => hentered⟩
    case isTrue hlt =>
      split at h
      case h_1 => cases h
      case h_2 line next hline =>
        split at h
        case h_1 => cases h
        case h_2 rest compileEnd' hrest =>
          cases h
          have hcompiled := compileInstr_next hline
          cases hnext : nextOffset program subroutines offset with
          | none =>
            -- nothing is compiled behind an instruction that ends the program
            rw [hnext, Option.getD_none] at hcompiled
            rw [hcompiled] at hrest
            obtain ⟨hend, hle⟩ := compileUntil_programEnd hrest
            rw [hend]
            exact ⟨hle, fun h => absurd rfl h⟩
          | some q =>
            rw [hnext, Option.getD_some] at hcompiled
            rw [hcompiled] at hrest
            exact ih hrest (hentered.next (hstop offset hentered hlt) hnext)

theorem compileUntil_compiled (hexits : RightExits subroutines function) {stop fuel offset : Nat}
    (h : compileUntil handled program subroutines stop fuel offset = .ok (lines, compileEnd))
    (hentered : Entered program subroutines sub offset)
    (hstop : ∀ q, Entered program subroutines sub q → q < stop → q ≠ sub.range.2) :
    Compiled m function program subroutines sub stop offset lines compileEnd := by
  induction fuel generalizing offset lines with
  | zero => cases h
  | succ fuel ih =>
    obtain ⟨hstopLe, hend⟩ := compileUntil_end h hentered hstop
    rw [compileUntil] at h
    split at h
    case isFalse hge =>
      cases h
      refine ⟨hstopLe, hend, fun _ _ _ => hentered, ?_, ?_, ?_⟩
      · rintro s s' next ⟨-, hfalls⟩
        cases hfalls
      · rintro s s' dest ⟨-, hfalls⟩
        cases hfalls
      · intro s s' result
        constructor
        · exact fun h => ⟨s, .falls, ⟨rfl, rfl⟩, h⟩
        · rintro ⟨s₁, leave, ⟨rfl, rfl⟩, h⟩
          exact h
    case isTrue hlt =>
      split at h
      case h_1 => cases h
      case h_2 line next hline =>
        split at h
        case h_1 => cases h
        case h_2 rest compileEnd' hrest =>
          cases h
          have hne := hstop offset hentered hlt
          obtain ⟨hoffset, hruns⟩ := compileInstr_runs m hexits hline
          have hcompiled := compileInstr_next hline
          have hbehind (q : Nat) (hq : nextOffset program subroutines offset = some q) :
              Compiled m function program subroutines sub stop q rest compileEnd := by
            rw [hq, Option.getD_some] at hcompiled
            rw [hcompiled] at hrest
            exact ih hrest (hentered.next hne hq)
          refine ⟨hstopLe, hend, ?_, ?_, ?_, ?_⟩
          · rintro s s' ⟨s₁, first, hrun, ⟨rfl, hlines⟩ | ⟨hfalls, -, rfl⟩⟩
            · obtain ⟨after, hinstr, hleave⟩ := (hruns s s₁ _).mp hrun
              cases after with
              | offset q => exact (hbehind q (runs_offset hexits hinstr)).falls s₁ s' hlines
              | ended => cases hleave
              | jumped dest => cases hleave
            · exact absurd rfl hfalls
          · rintro s s' d ⟨s₁, first, hrun, hrest⟩
            obtain ⟨after, hinstr, rfl⟩ := (hruns s s₁ first).mp hrun
            rcases hrest with ⟨hfalls, hlines⟩ | ⟨-, -, hgoes⟩
            · cases after with
              | offset q => exact (hbehind q (runs_offset hexits hinstr)).goes s₁ s' d hlines
              | ended => cases hfalls
              | jumped dest => cases hfalls
            · cases after <;> cases hgoes
          · rintro s s' dest ⟨s₁, first, hrun, hrest⟩
            obtain ⟨after, hinstr, rfl⟩ := (hruns s s₁ first).mp hrun
            rcases hrest with ⟨hfalls, hlines⟩ | ⟨-, -, hjumps⟩
            · cases after with
              | offset q => exact (hbehind q (runs_offset hexits hinstr)).jumps s₁ s' dest hlines
              | ended => cases hfalls
              | jumped dest => cases hfalls
            · cases after with
              | jumped d =>
                cases hjumps
                exact ⟨offset, hentered, runs_jumped hinstr⟩
              | offset q => cases hjumps
              | ended => cases hjumps
          · intro s s' result
            rw [segment_instr hoffset hne]
            constructor
            · rintro ⟨s₁, after, hinstr, hafter⟩
              have hrun := (hruns s s₁ _).mpr ⟨_, hinstr, rfl⟩
              cases after with
              | offset q =>
                obtain ⟨s₂, leave, hlines, hq⟩ :=
                  ((hbehind q (runs_offset hexits hinstr)).segment s₁ s' result).mp hafter
                exact ⟨s₂, leave, ⟨s₁, .falls, hrun, .inl ⟨rfl, hlines⟩⟩, hq⟩
              | ended =>
                obtain ⟨rfl, rfl⟩ := hafter
                exact ⟨s', .returns true, ⟨s', .returns true, hrun, .inr ⟨by simp, rfl, rfl⟩⟩, rfl, rfl⟩
              | jumped dest =>
                obtain ⟨rfl, rfl⟩ := hafter
                exact ⟨s', .jumps dest, ⟨s', .jumps dest, hrun, .inr ⟨by simp, rfl, rfl⟩⟩, rfl, rfl⟩
            · rintro ⟨s₂, leave, ⟨s₁, first, hrun, hrest⟩, hq⟩
              obtain ⟨after, hinstr, rfl⟩ := (hruns s s₁ first).mp hrun
              refine ⟨s₁, after, hinstr, ?_⟩
              cases after with
              | offset q =>
                rcases hrest with ⟨-, hlines⟩ | ⟨hne, -, -⟩
                · exact ((hbehind q (runs_offset hexits hinstr)).segment s₁ s' result).mpr ⟨s₂, leave, hlines, hq⟩
                · exact absurd rfl hne
              | ended =>
                rcases hrest with ⟨hfalls, -⟩ | ⟨-, rfl, rfl⟩
                · cases hfalls
                · exact hq
              | jumped dest =>
                rcases hrest with ⟨hfalls, -⟩ | ⟨-, rfl, rfl⟩
                · cases hfalls
                · exact hq

theorem nextLabel_some {label next : Nat} (h : nextLabel labels label = some next) :
    next ∈ labels ∧ label < next ∧ ∀ x ∈ labels, label < x → next ≤ x := by
  unfold nextLabel at h
  dsimp only at h
  split at h
  case isTrue hlater =>
    cases h
    obtain ⟨hmem, hlt⟩ := Finset.mem_filter.mp (Finset.min'_mem _ hlater)
    exact ⟨hmem, hlt, fun x hx hlt => Finset.min'_le _ _ (Finset.mem_filter.mpr ⟨hx, hlt⟩)⟩
  case isFalse => cases h

theorem nextLabel_none {label : Nat} (h : nextLabel labels label = none) : ∀ x ∈ labels, x ≤ label := by
  intro x hx
  by_contra hlt
  unfold nextLabel at h
  rw [dif_pos ⟨x, Finset.mem_filter.mpr ⟨hx, not_le.mp hlt⟩⟩] at h
  cases h

theorem caseEnd_cases {s : Subroutine} (hlabels : ∀ x ∈ labels, Entered program subroutines s x) (label : Nat) :
    (nextLabel labels label).getD s.range.2 = s.range.2 ∨ label < (nextLabel labels label).getD s.range.2 ∧
      Entered program subroutines s ((nextLabel labels label).getD s.range.2) := by
  cases hnext : nextLabel labels label with
  | none => exact .inl rfl
  | some next =>
    obtain ⟨hmem, hlt, -⟩ := nextLabel_some hnext
    exact .inr ⟨hlt, hlabels next hmem⟩

/-- Where the offsets that are entered are in front of the return point, or none of them is the return point, what is
compiled up to the return point or a label leaves it out. -/
theorem compileRange_clear (hcut : (∀ q, Entered program subroutines sub q → q ≤ sub.range.2) ∨
      ∀ q, Entered program subroutines sub q → q ≠ sub.range.2) {first stop : Nat}
    (hfirst : Entered program subroutines sub first)
    (hstop : stop = sub.range.2 ∨ first < stop ∧ Entered program subroutines sub stop) :
    ∀ q, Entered program subroutines sub q → q < (if stop < first then programEnd else stop) → q ≠ sub.range.2 := by
  intro q hq hlt
  rcases hcut with hle | hne
  · have hstopLe : stop ≤ sub.range.2 := by
      rcases hstop with heq | ⟨-, hstop⟩
      · exact heq.le
      · exact hle stop hstop
    have hnot : ¬ stop < first := by
      rcases hstop with heq | ⟨hlt, -⟩
      · rw [heq]
        exact not_lt.mpr (hle first hfirst)
      · exact not_lt.mpr hlt.le
    rw [if_neg hnot] at hlt
    exact (hlt.trans_le hstopLe).ne
  · exact hne q hq

theorem cut_of_skips {stop label : Nat}
    (h : Compiled m function program subroutines sub stop label lines compileEnd)
    (hrest : compileEnd ∈ rest.map Prod.fst)
    (hcut : CutCases (Line.Runs m function) (Segment m function program sub.range.2) rest) :
    CutCases (Line.Runs m function) (Segment m function program sub.range.2)
      ((label, lines ++ [.jumpTo compileEnd]) :: rest) := by
  have hsequence (s s' : σ) (leave : Leave) :
      Sequence (Line.Runs m function) (lines ++ [.jumpTo compileEnd]) s s' leave ↔
      (Sequence (Line.Runs m function) lines s s' .falls ∧ leave = .goes compileEnd) ∨
        (Sequence (Line.Runs m function) lines s s' leave ∧ leave ≠ .falls) := by
    rw [sequence_append]
    constructor
    · rintro ⟨s₁, first, hlines, ⟨rfl, hjump⟩ | ⟨hne, rfl, rfl⟩⟩
      · obtain ⟨s₂, second, ⟨rfl, rfl⟩, ⟨hfalls, -⟩ | ⟨-, rfl, rfl⟩⟩ := hjump
        · cases hfalls
        · exact .inl ⟨hlines, rfl⟩
      · exact .inr ⟨hlines, hne⟩
    · rintro (⟨hlines, rfl⟩ | ⟨hlines, hne⟩)
      · exact ⟨s', .falls, hlines, .inl ⟨rfl, s', .goes compileEnd, ⟨rfl, rfl⟩, .inr ⟨by simp, rfl, rfl⟩⟩⟩
      · exact ⟨s', leave, hlines, .inr ⟨hne, rfl, rfl⟩⟩
  refine ⟨?_, ?_, hcut⟩
  · intro s s₁ next hgoes
    rcases (hsequence s s₁ _).mp hgoes with ⟨-, heq⟩ | ⟨hlines, -⟩
    · cases heq
      exact hrest
    · exact absurd hlines (h.goes s s₁ next)
  · intro s s' result
    rw [h.segment]
    constructor
    · rintro ⟨s₁, leave, hlines, hbehind⟩
      cases leave with
      | falls => exact ⟨s₁, .goes compileEnd, (hsequence s s₁ _).mpr (.inl ⟨hlines, rfl⟩), hbehind⟩
      | returns value => exact ⟨s₁, .returns value, (hsequence s s₁ _).mpr (.inr ⟨hlines, by simp⟩), hbehind⟩
      | jumps dest => exact ⟨s₁, .jumps dest, (hsequence s s₁ _).mpr (.inr ⟨hlines, by simp⟩), hbehind⟩
      | goes next => exact hbehind.elim
    · rintro ⟨s₁, leave, hrun, hafter⟩
      rcases (hsequence s s₁ leave).mp hrun with ⟨hlines, rfl⟩ | ⟨hlines, hne⟩
      · exact ⟨s₁, .falls, hlines, hafter⟩
      · cases leave with
        | falls => exact absurd rfl hne
        | returns value => exact ⟨s₁, .returns value, hlines, hafter⟩
        | jumps dest => exact ⟨s₁, .jumps dest, hlines, hafter⟩
        | goes next => exact absurd hlines (h.goes s s₁ next)

theorem cut_of_falls {stop label : Nat}
    (h : Compiled m function program subroutines sub stop label lines compileEnd)
    (hrest : Entered program subroutines sub compileEnd →
      match rest with
      | [] => compileEnd = sub.range.2
      | (next, _) :: _ => compileEnd = next)
    (hcut : CutCases (Line.Runs m function) (Segment m function program sub.range.2) rest) :
    CutCases (Line.Runs m function) (Segment m function program sub.range.2) ((label, lines) :: rest) := by
  refine ⟨fun s s₁ next hgoes => absurd hgoes (h.goes s s₁ next), ?_, hcut⟩
  intro s s' result
  rw [h.segment]
  apply exists_congr
  intro s₁
  apply exists_congr
  intro leave
  apply and_congr_right
  intro hlines
  cases leave with
  | falls =>
    have hend := hrest (h.falls s s₁ hlines)
    cases rest with
    | nil =>
      rw [Behind, hend]
      exact segment_stop
    | cons c rest' =>
      rw [Behind, hend]
      rfl
  | returns value => rfl
  | jumps dest => rfl
  | goes next => exact absurd hlines (h.goes s s₁ next)

structure CasesFrom (m : Machine σ) (function : Range → σ → σ → Bool → Prop) (program : ProgramCode)
    (sub : Subroutine) (labels : Finset Nat) (label : Nat) (cases : List (Nat × List Line)) : Prop where
  head : ∃ lines rest, cases = (label, lines) :: rest
  sorted : (cases.map Prod.fst).Pairwise (· < ·)
  labels : ∀ x ∈ labels, label ≤ x → x ∈ cases.map Prod.fst
  cut : CutCases (Line.Runs m function) (Segment m function program sub.range.2) cases

theorem CasesFrom.cons {labels labels' : Finset Nat} {label next : Nat} (h : CasesFrom m function program sub labels' next rest) (hlt : label < next)
    (hlabels : ∀ x ∈ labels, label < x → x ∈ labels' ∧ next ≤ x)
    (hcut : CutCases (Line.Runs m function) (Segment m function program sub.range.2) ((label, lines) :: rest)) :
    CasesFrom m function program sub labels label ((label, lines) :: rest) := by
  refine ⟨⟨lines, rest, rfl⟩, ?_, ?_, hcut⟩
  · rw [List.map_cons, List.pairwise_cons]
    refine ⟨?_, h.sorted⟩
    obtain ⟨lines', rest', rfl⟩ := h.head
    have hsorted := h.sorted
    rw [List.map_cons, List.pairwise_cons] at hsorted
    intro x hx
    rcases List.mem_cons.mp hx with rfl | hx
    · exact hlt
    · exact hlt.trans (hsorted.1 x hx)
  · intro x hx hle
    rcases hle.eq_or_lt with rfl | hlt
    · exact List.mem_cons_self ..
    · obtain ⟨hmem, hle⟩ := hlabels x hx hlt
      exact List.mem_cons_of_mem _ (h.labels x hmem hle)

theorem compileCases_from (m : Machine σ) (hexits : RightExits subroutines function)
    (hinside : ∀ q, Entered program subroutines sub q → q < programEnd)
    (hcut : (∀ q, Entered program subroutines sub q → q ≤ sub.range.2) ∨
      ∀ q, Entered program subroutines sub q → q ≠ sub.range.2) {fuel : Nat} {label : Nat}
    {cases : List (Nat × List Line)}
    (h : compileCases handled program subroutines sub.range.2 fuel labels label = .ok cases)
    (hlabels : ∀ x ∈ labels, Entered program subroutines sub x) (hlabel : label ∈ labels) :
    CasesFrom m function program sub labels label cases := by
  induction fuel generalizing labels label cases with
  | zero => cases h
  | succ fuel ih =>
    rw [compileCases] at h
    have hcaseEnd := caseEnd_cases hlabels label
    split at h
    case h_1 => cases h
    case h_2 lines compileEnd hrange =>
      have hcompiled : Compiled m function program subroutines sub _ label lines compileEnd :=
        compileUntil_compiled hexits hrange (hlabels label hlabel)
          (compileRange_clear hcut (hlabels label hlabel) hcaseEnd)
      -- what is entered is in front of the end of the program
      have hge (hentered : Entered program subroutines sub compileEnd) :
          label ≤ (nextLabel labels label).getD sub.range.2 ∧
            (nextLabel labels label).getD sub.range.2 ≤ compileEnd := by
        have hle := hcompiled.stop_le
        have hlt := hinside compileEnd hentered
        split at hle
        case isTrue => exact absurd hlt (not_lt.mpr hle)
        case isFalse hnot => exact ⟨not_lt.mp hnot, hle⟩
      by_cases hskips : (nextLabel labels label).getD sub.range.2 < compileEnd ∧ compileEnd ≠ programEnd
      · simp only [if_pos hskips] at h
        have hentered := hcompiled.entered hskips.2
        have hlt : label < compileEnd := (hge hentered).1.trans_lt hskips.1
        split at h
        case h_1 hnone =>
          have hle := nextLabel_none hnone compileEnd (Finset.mem_insert_self _ _)
          exact absurd hlt (not_lt.mpr hle)
        case h_2 next hnext =>
          obtain ⟨hmem, hltNext, hleast⟩ := nextLabel_some hnext
          split at h
          case h_1 => cases h
          case h_2 rest hrest =>
            cases h
            have hlabels' : ∀ x ∈ insert compileEnd labels, Entered program subroutines sub x := by
              intro x hx
              rcases Finset.mem_insert.mp hx with rfl | hx
              · exact hentered
              · exact hlabels x hx
            have hfrom := ih hrest hlabels' hmem
            have hend := hfrom.labels compileEnd (Finset.mem_insert_self _ _)
              (hleast compileEnd (Finset.mem_insert_self _ _) hlt)
            refine hfrom.cons hltNext ?_ (cut_of_skips hcompiled hend hfrom.cut)
            intro x hx hlt
            exact ⟨Finset.mem_insert_of_mem hx, hleast x (Finset.mem_insert_of_mem hx) hlt⟩
      · simp only [if_neg hskips] at h
        have hend (hentered : Entered program subroutines sub compileEnd) :
            compileEnd = (nextLabel labels label).getD sub.range.2 := by
          have hle : compileEnd ≤ (nextLabel labels label).getD sub.range.2 := by
            by_contra hlt
            exact hskips ⟨not_le.mp hlt, (hinside compileEnd hentered).ne⟩
          exact le_antisymm hle (hge hentered).2
        split at h
        case h_1 hnone =>
          cases h
          rw [hnone] at hend
          refine ⟨⟨lines, [], rfl⟩, List.pairwise_singleton _ _, ?_, cut_of_falls hcompiled hend trivial⟩
          intro x hx hle
          rw [le_antisymm (nextLabel_none hnone x hx) hle]
          exact List.mem_cons_self ..
        case h_2 next hnext =>
          obtain ⟨hmem, hltNext, hleast⟩ := nextLabel_some hnext
          rw [hnext] at hend
          split at h
          case h_1 => cases h
          case h_2 rest hrest =>
            cases h
            have hfrom := ih hrest hlabels hmem
            refine hfrom.cons hltNext (fun x hx hlt => ⟨hx, hleast x hx hlt⟩) (cut_of_falls hcompiled ?_ hfrom.cut)
            obtain ⟨lines', rest', rfl⟩ := hfrom.head
            exact hend

theorem straight_runs {stop offset : Nat}
    (h : Compiled m function program subroutines sub stop offset lines compileEnd)
    (hend : Entered program subroutines sub compileEnd → compileEnd ≠ programEnd ∧ compileEnd = sub.range.2)
    (hjumps : ∀ q dest, Entered program subroutines sub q → flowAt program q ≠ some (some (.jump dest))) (s s' : σ)
    (result : Result) :
    (Body.straight (if compileEnd ≠ programEnd then lines ++ [.returnValue false] else lines)).RunsFrom m function
        offset s s' result ↔ ∃ s₁ leave, Sequence (Line.Runs m function) lines s s₁ leave ∧
        Behind (Segment m function program sub.range.2) compileEnd s₁ s' result leave := by
  have hreturns (value : Bool) : Sequence (Line.Runs m function)
      (if compileEnd ≠ programEnd then lines ++ [.returnValue false] else lines) s s' (.returns value) ↔
        Sequence (Line.Runs m function) lines s s' (.returns value) ∨
          (Sequence (Line.Runs m function) lines s s' .falls ∧ value = false) := by
    by_cases hne : compileEnd ≠ programEnd
    · rw [if_pos hne, sequence_append]
      constructor
      · rintro ⟨s₁, first, hlines, ⟨rfl, hreturn⟩ | ⟨-, rfl, rfl⟩⟩
        · obtain ⟨s₂, second, ⟨rfl, rfl⟩, ⟨hfalls, -⟩ | ⟨-, rfl, hvalue⟩⟩ := hreturn
          · cases hfalls
          · cases hvalue
            exact .inr ⟨hlines, rfl⟩
        · exact .inl hlines
      · rintro (hlines | ⟨hlines, rfl⟩)
        · exact ⟨s', .returns value, hlines, .inr ⟨by simp, rfl, rfl⟩⟩
        · exact ⟨s', .falls, hlines, .inl ⟨rfl, s', .returns false, ⟨rfl, rfl⟩, .inr ⟨by simp, rfl, rfl⟩⟩⟩
    · rw [if_neg hne]
      refine (or_iff_left ?_).symm
      rintro ⟨hlines, -⟩
      exact hne (hend (h.falls s s' hlines)).1
  constructor
  · rintro ⟨value, hrun, rfl⟩
    rcases (hreturns value).mp hrun with hlines | ⟨hlines, rfl⟩
    · exact ⟨s', .returns value, hlines, rfl, rfl⟩
    · refine ⟨s', .falls, hlines, ?_⟩
      rw [Behind, (hend (h.falls s s' hlines)).2]
      exact .returned s'
  · rintro ⟨s₁, leave, hlines, hbehind⟩
    cases leave with
    | falls =>
      rw [Behind, (hend (h.falls s s₁ hlines)).2, segment_stop] at hbehind
      obtain ⟨rfl, rfl⟩ := hbehind
      exact ⟨false, (hreturns false).mpr (.inr ⟨hlines, rfl⟩), rfl⟩
    | returns value =>
      obtain ⟨rfl, rfl⟩ := hbehind
      exact ⟨value, (hreturns value).mpr (.inl hlines), rfl⟩
    | jumps dest =>
      obtain ⟨q, hq, hflow⟩ := h.jumps s s₁ dest hlines
      exact absurd hflow (hjumps q dest hq)
    | goes next => exact hbehind.elim

end

/-- From each label the function that is generated does what is to be done up to the next jump that is taken, the end of
the program or the return point. -/
theorem generate_runs {s : Subroutine} {fuel : Nat} {body : Body}
    (hgenerate : generate handled program subroutines fuel s = .ok body) (hkept : Kept program subroutines s)
    {σ : Type*} (m : Machine σ) {function : Range → σ → σ → Bool → Prop} (hexits : RightExits subroutines function) :
    ∀ label ∈ insert s.range.1 s.labels, ∀ st st' result, body.RunsFrom m function label st st' result ↔
      Segment m function program s.range.2 label st st' result := by
  have hcut : (∀ q, Entered program subroutines s q → q ≤ s.range.2) ∨
      ∀ q, Entered program subroutines s q → q ≠ s.range.2 := hkept.cut.imp_right And.left
  have hlabels : ∀ x ∈ insert s.range.1 s.labels, Entered program subroutines s x :=
    fun x hx => ⟨x, hx, .refl⟩
  unfold generate at hgenerate
  split at hgenerate
  case isTrue hempty =>
    split at hgenerate
    case h_1 => cases hgenerate
    case h_2 lines compileEnd hrange =>
      cases hgenerate
      intro label hlabel st st' result
      rw [hempty, Finset.mem_insert, or_iff_left (Finset.notMem_empty _)] at hlabel
      subst hlabel
      have hcompiled : Compiled m function program subroutines s _ s.range.1 lines compileEnd :=
        compileUntil_compiled hexits hrange (hlabels _ (Finset.mem_insert_self _ _))
          (compileRange_clear hcut (hlabels _ (Finset.mem_insert_self _ _)) (.inl rfl))
      refine (straight_runs hcompiled ?_ ?_ st st' result).trans (hcompiled.segment st st' result).symm
      · intro hentered
        have hlt := hkept.inside compileEnd hentered
        have hstopLe := hcompiled.stop_le
        refine ⟨hlt.ne, ?_⟩
        split at hstopLe
        case isTrue => exact absurd hlt (not_lt.mpr hstopLe)
        case isFalse hnot =>
          rcases hkept.cut with hle | ⟨-, hlt⟩
          · exact le_antisymm (hle compileEnd hentered) hstopLe
          · exact absurd (hlt hempty) hnot
      · exact fun q dest => hkept.labelled hempty q dest
  case isFalse =>
    dsimp only at hgenerate
    split at hgenerate
    case h_1 => cases hgenerate
    case h_2 cases hcases =>
      cases hgenerate
      intro label hlabel st st' result
      have hfrom := compileCases_from m hexits hkept.inside hcut hcases hlabels (Finset.min'_mem _ _)
      have hnodup : (cases.map Prod.fst).Nodup := hfrom.sorted.imp fun h => h.ne
      exact dispatches_iff hnodup hfrom.cut (hfrom.labels label hlabel (Finset.min'_le _ _ hlabel)) st st' result

section Completion

variable {s : Subroutine}

section

variable (h : Compilable program subroutines handled s)

include h

theorem compileUntil_completes {stop fuel offset : Nat}
    (hstop : ∀ q, Entered program subroutines s q → q < stop → q ≠ s.range.2) (hle : stop ≤ programEnd)
    (hoffset : Entered program subroutines s offset ∨ offset = programEnd) (hfuel : stop - offset < fuel) :
    ∃ result, compileUntil handled program subroutines stop fuel offset = .ok result := by
  induction fuel generalizing offset with
  | zero => exact absurd hfuel (Nat.not_lt_zero _)
  | succ fuel ih =>
    rw [compileUntil]
    by_cases hlt : offset < stop
    · rw [if_pos hlt]
      have hentered := hoffset.resolve_right (by omega)
      have hne := hstop offset hentered hlt
      obtain ⟨⟨line, compiled⟩, hline⟩ := h.instr offset hentered hne
      rw [hline]
      dsimp only
      have hnext : (Entered program subroutines s compiled ∨ compiled = programEnd) ∧ offset < compiled := by
        have hcompiled := compileInstr_next hline
        cases hnext : nextOffset program subroutines offset with
        | none =>
          rw [hnext, Option.getD_none] at hcompiled
          exact ⟨.inr hcompiled, by omega⟩
        | some q =>
          rw [hnext, Option.getD_some] at hcompiled
          rw [hcompiled]
          exact ⟨.inl (hentered.next hne hnext), h.forward offset q hentered hne hnext⟩
      obtain ⟨⟨lines, compileEnd⟩, hlines⟩ := ih hnext.1 (by omega)
      rw [hlines]
      exact ⟨_, rfl⟩
    · rw [if_neg hlt]
      exact ⟨_, rfl⟩

theorem compileRange_completes (hcut : (∀ q, Entered program subroutines s q → q ≤ s.range.2) ∨
      ∀ q, Entered program subroutines s q → q ≠ s.range.2) {fuel first stop : Nat}
    (hfirst : Entered program subroutines s first)
    (hstop : stop = s.range.2 ∨ first < stop ∧ Entered program subroutines s stop) (hle : stop ≤ programEnd)
    (hfuel : programEnd - first < fuel) :
    ∃ result, compileRange handled program subroutines fuel first stop = .ok result := by
  refine compileUntil_completes h (compileRange_clear hcut hfirst hstop) ?_ (.inl hfirst) ?_
  · split
    · exact le_rfl
    · exact hle
  · split <;> omega

theorem compileCases_completes (hinside : ∀ q, Entered program subroutines s q → q < programEnd)
    (hcut : (∀ q, Entered program subroutines s q → q ≤ s.range.2) ∨
      ∀ q, Entered program subroutines s q → q ≠ s.range.2) {fuel : Nat} {labels : Finset Nat} {label : Nat}
    (hlabels : ∀ x ∈ labels, Entered program subroutines s x) (hlabel : label ∈ labels)
    (hfuel : programEnd - label < fuel) :
    ∃ cases, compileCases handled program subroutines s.range.2 fuel labels label = .ok cases := by
  induction fuel generalizing labels label with
  | zero => exact absurd hfuel (Nat.not_lt_zero _)
  | succ fuel ih =>
    have hcaseEnd := caseEnd_cases hlabels label
    have hle : (nextLabel labels label).getD s.range.2 ≤ programEnd := by
      rcases hcaseEnd with heq | ⟨-, hentered⟩
      · rw [heq]
        exact h.stop_le
      · exact (hinside _ hentered).le
    obtain ⟨⟨lines, compileEnd⟩, hrange⟩ :=
      compileRange_completes h hcut (hlabels label hlabel) hcaseEnd hle hfuel
    rw [compileCases]
    simp only [hrange]
    have hlabels' (x : Nat) (hx : x ∈ (if (nextLabel labels label).getD s.range.2 < compileEnd ∧ compileEnd ≠ programEnd
        then insert compileEnd labels else labels)) : Entered program subroutines s x := by
      split at hx
      case isTrue hskips =>
        rcases Finset.mem_insert.mp hx with rfl | hx
        · refine (compileUntil_end hrange (hlabels label hlabel) ?_).2 hskips.2
          exact compileRange_clear hcut (hlabels label hlabel) hcaseEnd
        · exact hlabels x hx
      case isFalse => exact hlabels x hx
    split
    case h_1 => exact ⟨_, rfl⟩
    case h_2 next hnext =>
      obtain ⟨hmem, hlt, -⟩ := nextLabel_some hnext
      obtain ⟨rest, hrest⟩ := ih hlabels' hmem (by
        have := hinside label (hlabels label hlabel)
        omega)
      rw [hrest]
      exact ⟨_, rfl⟩

theorem generate_completes (hkept : Kept program subroutines s) :
    ∃ body, generate handled program subroutines (programEnd + 1) s = .ok body := by
  have hcut : (∀ q, Entered program subroutines s q → q ≤ s.range.2) ∨
      ∀ q, Entered program subroutines s q → q ≠ s.range.2 := hkept.cut.imp_right And.left
  have hlabels : ∀ x ∈ insert s.range.1 s.labels, Entered program subroutines s x :=
    fun x hx => ⟨x, hx, .refl⟩
  have hfuel (x : Nat) : programEnd - x < programEnd + 1 := Nat.lt_succ_of_le (Nat.sub_le _ _)
  unfold generate
  split
  case isTrue =>
    obtain ⟨⟨lines, compileEnd⟩, hrange⟩ := compileRange_completes h hcut
      (hlabels _ (Finset.mem_insert_self _ _)) (.inl rfl) h.stop_le (hfuel _)
    rw [hrange]
    exact ⟨_, rfl⟩
  case isFalse =>
    obtain ⟨cases, hcases⟩ := compileCases_completes h hkept.inside hcut hlabels
      (Finset.min'_mem _ ⟨_, Finset.mem_insert_self _ _⟩) (hfuel _)
    dsimp only
    rw [hcases]
    exact ⟨_, rfl⟩

end

end Completion

def loopedSubroutine : Subroutine := ⟨(6, 8), .alwaysReturn, {6}⟩

/-- A machine that writes down what it runs, and takes no jump. -/
def tracing : Machine (List Nat) where
  exec offset trace := offset :: trace
  test _ _ := false
  loopStart _ trace := trace
  loopCount _ _ := 0
  loopNext _ trace := trace

/-- A jump to a label behind the return point. -/
def outerJump : ProgramCode := fun p =>
  match p.val with
  | 0 => { opcode := .call, destOffset := 4, numInstructions := 2 }
  | 1 => { opcode := .endProgram }
  | 4 => { opcode := .jmpc, destOffset := 8 }
  | 8 => { opcode := .endProgram }
  | _ => { opcode := .other 0 }

end SweepDSEmu.VideoCore.Shader
