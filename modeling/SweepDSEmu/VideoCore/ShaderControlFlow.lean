import Mathlib.Data.Finset.Insert

/-!
# Control flow of shaders

`ControlFlowAnalyzer`, which finds the subroutines of a shader program, the labels in them and how they are left.

* Instructions are given as `Instruction.flow` sees them: they go on, end the program, jump, or run one of some blocks
  and go on behind it.
* The map of the exit methods answers what was scanned before.  Whether the scan had finished, and for which subroutine
  it was, the code does not keep; `Entry` does, and the flags `unfinished` and `foreign` say that an answer came from a
  scan that had not finished, or from that of another subroutine.
* Without such an answer of the first kind, the exit methods are right: `scan_exits`.
-/

namespace SweepDSEmu.VideoCore.Shader

def programEnd : Nat := 4096

inductive OpCode where
  | endProgram
  | jmpc
  | jmpu
  | call
  | callc
  | callu
  | loop
  | ifc
  | ifu
  | other (id : Nat)
  deriving DecidableEq

/-- An instruction with its fields for flow control. -/
structure Instruction where
  opcode : OpCode
  destOffset : Nat := 0
  numInstructions : Nat := 0
  deriving DecidableEq

abbrev ProgramCode := Fin programEnd → Instruction

/-- Where a subroutine begins, and its return point. -/
abbrev Range := Nat × Nat

/-- How an instruction goes on when it does not just go to the next one. -/
inductive Flow where
  | stop
  | jump (dest : Nat)
  /-- One of some subroutines is run, or none where `none` is among them. -/
  | block (branches : List (Option Range)) (after : Nat)
  deriving DecidableEq

def Instruction.flow (instr : Instruction) (offset : Nat) : Option Flow :=
  let callee := (instr.destOffset, instr.destOffset + instr.numInstructions)
  match instr.opcode with
  | .endProgram => some .stop
  | .jmpc | .jmpu => some (.jump instr.destOffset)
  | .call => some (.block [some callee] (offset + 1))
  | .loop => some (.block [some (offset + 1, instr.destOffset + 1)] (instr.destOffset + 1))
  | .callc | .callu => some (.block [some callee, none] (offset + 1))
  | .ifc | .ifu =>
    some (.block [some (offset + 1, instr.destOffset), if instr.numInstructions ≠ 0 then some callee else none]
      (instr.destOffset + instr.numInstructions))
  | .other _ => none

/-- How the instruction at an offset goes on; nothing is there behind the program. -/
def flowAt (program : ProgramCode) (offset : Nat) : Option (Option Flow) :=
  if h : offset < programEnd then some ((program ⟨offset, h⟩).flow offset) else none

inductive ExitMethod where
  | undetermined
  | alwaysReturn
  | conditional
  | alwaysEnd
  deriving DecidableEq

def parallelExit (a b : ExitMethod) : ExitMethod :=
  if a = .undetermined then b else if b = .undetermined then a else if a = b then a else .conditional

def seriesExit (a b : ExitMethod) : ExitMethod :=
  if a = .undetermined then .undetermined
  else if a = .alwaysReturn then b
  else if b = .undetermined ∨ b = .alwaysEnd then .alwaysEnd
  else .conditional

structure Subroutine where
  range : Range
  exitMethod : ExitMethod
  labels : Finset Nat
  deriving DecidableEq

/-- What the map holds, if the scan has finished, and the scan of which subroutine it was a part of. -/
structure Entry where
  exitMethod : ExitMethod
  finished : Bool
  scan : Nat

structure Analyzer where
  subroutines : List Subroutine := []
  exitMethodMap : Range → Option Entry := fun _ => none
  nextScan : Nat := 0
  unfinished : Bool := false
  foreign : Bool := false

inductive Failure where
  | decompileFail (what : String)
  | assertFailed
  | outOfBounds
  | outOfFuel
  deriving DecidableEq

/-- The loop of `Scan` over instructions that go to the next one: where it stops, unless it comes to the end. -/
def walk (program : ProgramCode) (stop : Nat) : Nat → Nat → Except Failure (Option (Nat × Flow))
  | 0, _ => .error .outOfFuel
  | fuel + 1, offset =>
    if offset = stop ∨ offset = programEnd then .ok none
    else
      match flowAt program offset with
      | none => .error .outOfBounds
      | some none => walk program stop fuel (offset + 1)
      | some (some flow) => .ok (some (offset, flow))

namespace Analyzer

def enter (st : Analyzer) (range : Range) (scan : Nat) : Analyzer :=
  let entry : Entry := { exitMethod := .undetermined, finished := false, scan := scan }
  { st with exitMethodMap := Function.update st.exitMethodMap range (some entry) }

def leave (st : Analyzer) (range : Range) (scan : Nat) (exitMethod : ExitMethod) : Analyzer :=
  let entry : Entry := { exitMethod := exitMethod, finished := true, scan := scan }
  { st with exitMethodMap := Function.update st.exitMethodMap range (some entry) }

def answer (st : Analyzer) (entry : Entry) (scan : Nat) : Analyzer :=
  { st with unfinished := st.unfinished || !entry.finished, foreign := st.foreign || entry.scan != scan }

abbrev Scanned := Except Failure (ExitMethod × Analyzer × Finset Nat)

def addSubroutine (scan : Nat → Range → Analyzer → Finset Nat → Scanned) (st : Analyzer) (range : Range) :
    Except Failure (Subroutine × Analyzer) :=
  match st.subroutines.find? fun s => s.range = range with
  | some subroutine => .ok (subroutine, st)
  | none =>
    match scan st.nextScan range { st with nextScan := st.nextScan + 1 } ∅ with
    | .error e => .error e
    | .ok (exitMethod, st, labels) =>
      if exitMethod = .undetermined then .error (.decompileFail "Recursive function detected")
      else
        match st.subroutines.find? fun s => s.range = range with
        | some subroutine => .ok (subroutine, st)
        | none =>
          let subroutine := { range := range, exitMethod := exitMethod, labels := labels }
          .ok (subroutine, { st with subroutines := st.subroutines ++ [subroutine] })

/-- The exit method of the branches of a block; `ParallelExit` leaves out what is undetermined. -/
def addBranches (add : Analyzer → Range → Except Failure (Subroutine × Analyzer)) :
    Analyzer → List (Option Range) → Except Failure (ExitMethod × Analyzer)
  | st, [] => .ok (.undetermined, st)
  | st, none :: branches =>
    match addBranches add st branches with
    | .error e => .error e
    | .ok (rest, st) => .ok (parallelExit .alwaysReturn rest, st)
  | st, some range :: branches =>
    match add st range with
    | .error e => .error e
    | .ok (subroutine, st) =>
      match addBranches add st branches with
      | .error e => .error e
      | .ok (rest, st) => .ok (parallelExit subroutine.exitMethod rest, st)

def scan (program : ProgramCode) : Nat → Nat → Range → Analyzer → Finset Nat → Scanned
  | 0, _, _, _, _ => .error .outOfFuel
  | fuel + 1, id, range, st, labels =>
    match st.exitMethodMap range with
    | some entry => .ok (entry.exitMethod, st.answer entry id, labels)
    | none =>
      let st := st.enter range id
      match walk program range.2 (programEnd + 1) range.1 with
      | .error e => .error e
      | .ok none => .ok (.alwaysReturn, st.leave range id .alwaysReturn, labels)
      | .ok (some (_, .stop)) => .ok (.alwaysEnd, st.leave range id .alwaysEnd, labels)
      | .ok (some (offset, .jump dest)) =>
        match scan program fuel id (offset + 1, range.2) st (insert dest labels) with
        | .error e => .error e
        | .ok (noJmp, st, labels) =>
          match scan program fuel id (dest, range.2) st labels with
          | .error e => .error e
          | .ok (jmp, st, labels) => .ok (parallelExit noJmp jmp, st.leave range id (parallelExit noJmp jmp), labels)
      | .ok (some (_, .block branches after)) =>
        match addBranches (addSubroutine (scan program fuel)) st branches with
        | .error e => .error e
        | .ok (both, st) =>
          if both = .alwaysEnd then .ok (.alwaysEnd, st.leave range id .alwaysEnd, labels)
          else
            match scan program fuel id (after, range.2) st labels with
            | .error e => .error e
            | .ok (afterCall, st, labels) =>
              .ok (seriesExit both afterCall, st.leave range id (seriesExit both afterCall), labels)

/-- `ControlFlowAnalyzer::ControlFlowAnalyzer`. -/
def analyze (fuel : Nat) (program : ProgramCode) (mainOffset : Nat) : Except Failure Analyzer :=
  match addSubroutine (scan program fuel) {} (mainOffset, programEnd) with
  | .error e => .error e
  | .ok (programMain, st) =>
    if programMain.exitMethod ≠ .alwaysEnd then .error (.decompileFail "Program does not always end") else .ok st

end Analyzer

variable {program : ProgramCode}

inductive Exit where
  | returned
  | ended
  deriving DecidableEq

/-- There is a path from an offset that comes to the return point, or to an end of the program. -/
inductive Reaches (program : ProgramCode) : Nat → Nat → Exit → Prop where
  | done (stop : Nat) : Reaches program stop stop .returned
  | next {stop p : Nat} {exit : Exit} (hp : p ≠ stop) (hflow : flowAt program p = some none)
      (h : Reaches program stop (p + 1) exit) : Reaches program stop p exit
  | ended {stop p : Nat} (hp : p ≠ stop) (hflow : flowAt program p = some (some .stop)) : Reaches program stop p .ended
  | noJump {stop p dest : Nat} {exit : Exit} (hp : p ≠ stop) (hflow : flowAt program p = some (some (.jump dest)))
      (h : Reaches program stop (p + 1) exit) : Reaches program stop p exit
  | jump {stop p dest : Nat} {exit : Exit} (hp : p ≠ stop) (hflow : flowAt program p = some (some (.jump dest)))
      (h : Reaches program stop dest exit) : Reaches program stop p exit
  | skip {stop p after : Nat} {exit : Exit} {branches : List (Option Range)} (hp : p ≠ stop)
      (hflow : flowAt program p = some (some (.block branches after))) (hskip : none ∈ branches)
      (h : Reaches program stop after exit) : Reaches program stop p exit
  | branch {stop p after : Nat} {exit : Exit} {branches : List (Option Range)} {range : Range} (hp : p ≠ stop)
      (hflow : flowAt program p = some (some (.block branches after))) (hrange : some range ∈ branches)
      (hbranch : Reaches program range.2 range.1 .returned) (h : Reaches program stop after exit) :
      Reaches program stop p exit
  | branchEnded {stop p after : Nat} {branches : List (Option Range)} {range : Range} (hp : p ≠ stop)
      (hflow : flowAt program p = some (some (.block branches after))) (hrange : some range ∈ branches)
      (hbranch : Reaches program range.2 range.1 .ended) : Reaches program stop p .ended

def ExitSound (program : ProgramCode) (range : Range) (exitMethod : ExitMethod) : Prop :=
  (exitMethod = .alwaysEnd → ¬ Reaches program range.2 range.1 .returned) ∧
  (exitMethod = .alwaysReturn → ¬ Reaches program range.2 range.1 .ended)

def branchesExit (subroutines : List Subroutine) : List (Option Range) → Option ExitMethod
  | [] => some .undetermined
  | none :: branches => (branchesExit subroutines branches).map (parallelExit .alwaysReturn)
  | some range :: branches =>
    match subroutines.find? fun s => s.range = range with
    | none => none
    | some s => (branchesExit subroutines branches).map (parallelExit s.exitMethod)

/-- An edge that `Scan` follows in a subroutine. -/
def Follows (program : ProgramCode) (subroutines : List Subroutine) (stop p q : Nat) : Prop :=
  p ≠ stop ∧
    match flowAt program p with
    | none => False
    | some none => q = p + 1
    | some (some .stop) => False
    | some (some (.jump dest)) => q = p + 1 ∨ q = dest
    | some (some (.block branches after)) =>
      q = after ∧ ∃ both, branchesExit subroutines branches = some both ∧ both ≠ .alwaysEnd

def LabelsComplete (program : ProgramCode) (subroutines : List Subroutine) (s : Subroutine) : Prop :=
  ∀ p dest, Relation.ReflTransGen (Follows program subroutines s.range.2) s.range.1 p → p ≠ s.range.2 →
    flowAt program p = some (some (.jump dest)) → dest ∈ s.labels

section Exits

variable {stop p : Nat} {exit : Exit}

theorem not_ended_of_stop (h : p = stop ∨ flowAt program p = none) : ¬ Reaches program stop p .ended := by
  intro hreaches
  cases hreaches <;> simp_all

theorem reaches_next (hp : p ≠ stop) (hflow : flowAt program p = some none) (h : Reaches program stop p exit) :
    Reaches program stop (p + 1) exit := by
  cases h with
  | done => exact absurd rfl hp
  | next _ _ h => exact h
  | _ => simp_all

theorem not_returned_of_stop (hp : p ≠ stop) (hflow : flowAt program p = some (some .stop)) :
    ¬ Reaches program stop p .returned := by
  intro h
  cases h with
  | done => exact absurd rfl hp
  | _ => simp_all

theorem reaches_jump {dest : Nat} (hp : p ≠ stop) (hflow : flowAt program p = some (some (.jump dest)))
    (h : Reaches program stop p exit) : Reaches program stop (p + 1) exit ∨ Reaches program stop dest exit := by
  cases h with
  | done => exact absurd rfl hp
  | noJump _ _ h => exact .inl h
  | jump _ hflow' h =>
    rw [hflow] at hflow'
    cases hflow'
    exact .inr h
  | _ => simp_all

theorem reaches_block {branches : List (Option Range)} {after : Nat} (hp : p ≠ stop)
    (hflow : flowAt program p = some (some (.block branches after))) (h : Reaches program stop p exit) :
    (exit = .ended ∧ ∃ range, some range ∈ branches ∧ Reaches program range.2 range.1 .ended) ∨
    (Reaches program stop after exit ∧
      (none ∈ branches ∨ ∃ range, some range ∈ branches ∧ Reaches program range.2 range.1 .returned)) := by
  cases h with
  | done => exact absurd rfl hp
  | skip _ hflow' hskip h =>
    rw [hflow] at hflow'
    cases hflow'
    exact .inr ⟨h, .inl hskip⟩
  | branch _ hflow' hrange hbranch h =>
    rw [hflow] at hflow'
    cases hflow'
    exact .inr ⟨h, .inr ⟨_, hrange, hbranch⟩⟩
  | branchEnded _ hflow' hrange hbranch =>
    rw [hflow] at hflow'
    cases hflow'
    exact .inl ⟨rfl, _, hrange, hbranch⟩
  | _ => simp_all

theorem flowAt_programEnd : flowAt program programEnd = none := dif_neg (Nat.lt_irrefl _)

def WalkSound (program : ProgramCode) (stop offset : Nat) : Option (Nat × Flow) → Prop
  | none => ¬ Reaches program stop offset .ended
  | some (p, flow) => p ≠ stop ∧ flowAt program p = some (some flow) ∧
      ∀ exit, Reaches program stop offset exit → Reaches program stop p exit

theorem walk_sound {fuel offset : Nat} {result : Option (Nat × Flow)} (h : walk program stop fuel offset = .ok result) :
    WalkSound program stop offset result := by
  induction fuel generalizing offset with
  | zero => cases h
  | succ fuel ih =>
    rw [walk] at h
    split at h
    case isTrue hstop =>
      cases h
      rcases hstop with hstop | hend
      · exact not_ended_of_stop (.inl hstop)
      · exact not_ended_of_stop (.inr (by rw [hend]; exact flowAt_programEnd))
    case isFalse hgo =>
      rw [not_or] at hgo
      split at h
      case h_1 => cases h
      case h_2 hflow =>
        have hnext := ih h
        cases result with
        | none => exact fun hreaches => hnext (reaches_next hgo.1 hflow hreaches)
        | some found =>
          exact ⟨hnext.1, hnext.2.1, fun exit hreaches => hnext.2.2 exit (reaches_next hgo.1 hflow hreaches)⟩
      case h_3 flow hflow =>
        cases h
        exact ⟨hgo.1, hflow, fun _ hreaches => hreaches⟩

variable {a b : ExitMethod}

theorem parallelExit_ne_undetermined (ha : a ≠ .undetermined) : parallelExit a b ≠ .undetermined := by
  cases a <;> cases b <;> simp_all [parallelExit]

theorem alwaysEnd_of_parallelExit (ha : a ≠ .undetermined) (h : parallelExit a b = .alwaysEnd) :
    a = .alwaysEnd ∧ (b = .alwaysEnd ∨ b = .undetermined) := by
  cases a <;> cases b <;> simp_all [parallelExit]

theorem alwaysReturn_of_parallelExit (ha : a ≠ .undetermined)
    (h : parallelExit a b = .alwaysReturn) : a = .alwaysReturn ∧ (b = .alwaysReturn ∨ b = .undetermined) := by
  cases a <;> cases b <;> simp_all [parallelExit]

theorem seriesExit_ne_undetermined (ha : a ≠ .undetermined) (hb : b ≠ .undetermined) :
    seriesExit a b ≠ .undetermined := by
  cases a <;> cases b <;> simp_all [seriesExit]

theorem alwaysEnd_of_seriesExit (ha : a ≠ .undetermined) (hb : b ≠ .undetermined)
    (h : seriesExit a b = .alwaysEnd) : b = .alwaysEnd := by
  cases a <;> cases b <;> simp_all [seriesExit]

theorem alwaysReturn_of_seriesExit (h : seriesExit a b = .alwaysReturn) :
    a = .alwaysReturn ∧ b = .alwaysReturn := by
  cases a <;> cases b <;> simp_all [seriesExit]

end Exits

def Determined (program : ProgramCode) (range : Range) (exitMethod : ExitMethod) : Prop :=
  exitMethod ≠ .undetermined ∧ ExitSound program range exitMethod

structure BranchesSound (program : ProgramCode) (branches : List (Option Range)) (both : ExitMethod) : Prop where
  undetermined : both = .undetermined → branches = []
  alwaysEnd : both = .alwaysEnd → ∀ branch ∈ branches, ∃ range, branch = some range ∧
    ¬ Reaches program range.2 range.1 .returned
  alwaysReturn : both = .alwaysReturn → ∀ range, some range ∈ branches → ¬ Reaches program range.2 range.1 .ended

theorem branchesSound_cons {a rest : ExitMethod} {branch : Option Range} {branches : List (Option Range)}
    (ha : a ≠ .undetermined)
    (hend : a = .alwaysEnd → ∃ range, branch = some range ∧ ¬ Reaches program range.2 range.1 .returned)
    (hreturn : a = .alwaysReturn → ∀ range, branch = some range → ¬ Reaches program range.2 range.1 .ended)
    (hrest : BranchesSound program branches rest) :
    BranchesSound program (branch :: branches) (parallelExit a rest) where
  undetermined h := absurd h (parallelExit_ne_undetermined ha)
  alwaysEnd h := by
    obtain ⟨ha', hrest'⟩ := alwaysEnd_of_parallelExit ha h
    intro b hb
    rcases List.mem_cons.mp hb with rfl | hb
    · exact hend ha'
    · rcases hrest' with hrest' | hrest'
      · exact hrest.alwaysEnd hrest' b hb
      · rw [hrest.undetermined hrest'] at hb
        cases hb
  alwaysReturn h := by
    obtain ⟨ha', hrest'⟩ := alwaysReturn_of_parallelExit ha h
    intro range hrange
    rcases List.mem_cons.mp hrange with heq | hrange
    · exact hreturn ha' range heq.symm
    · rcases hrest' with hrest' | hrest'
      · exact hrest.alwaysReturn hrest' range hrange
      · rw [hrest.undetermined hrest'] at hrange
        cases hrange

namespace Analyzer

/-- What is known about exit methods, where no answer came from a scan that had not finished. -/
structure ExitInv (program : ProgramCode) (st : Analyzer) : Prop where
  subroutines : ∀ s ∈ st.subroutines, Determined program s.range s.exitMethod
  entries : ∀ range entry, st.exitMethodMap range = some entry → entry.finished = true →
    Determined program range entry.exitMethod

variable {st st' : Analyzer} {range : Range} {id : Nat}

theorem ExitInv.enter (h : ExitInv program st) (range : Range) (id : Nat) : ExitInv program (st.enter range id) where
  subroutines := h.subroutines
  entries := by
    intro r entry hentry hfinished
    by_cases hr : r = range
    · subst hr
      simp only [Analyzer.enter, Function.update_self, Option.some.injEq] at hentry
      subst hentry
      cases hfinished
    · simp only [Analyzer.enter, Function.update_of_ne hr] at hentry
      exact h.entries r entry hentry hfinished

theorem ExitInv.leave (h : ExitInv program st) (id : Nat) {exitMethod : ExitMethod}
    (hexit : Determined program range exitMethod) : ExitInv program (st.leave range id exitMethod) where
  subroutines := h.subroutines
  entries := by
    intro r entry hentry hfinished
    by_cases hr : r = range
    · subst hr
      simp only [Analyzer.leave, Function.update_self, Option.some.injEq] at hentry
      subst hentry
      exact hexit
    · simp only [Analyzer.leave, Function.update_of_ne hr] at hentry
      exact h.entries r entry hentry hfinished

/-- A scan that took no answer that had not finished tells how the paths end. -/
def ScanExits (program : ProgramCode) (range : Range) (st : Analyzer) (result : Scanned) : Prop :=
  ∀ exitMethod st' labels, result = .ok (exitMethod, st', labels) → st'.unfinished = false →
    st.unfinished = false ∧ (ExitInv program st → ExitInv program st' ∧ Determined program range exitMethod)

theorem addSubroutine_exits {scan : Nat → Range → Analyzer → Finset Nat → Scanned}
    (hscan : ∀ id range st labels, ScanExits program range st (scan id range st labels)) {s : Subroutine}
    (h : addSubroutine scan st range = .ok (s, st')) (hunfinished : st'.unfinished = false) :
    st.unfinished = false ∧ (ExitInv program st → ExitInv program st' ∧ Determined program range s.exitMethod) := by
  unfold addSubroutine at h
  split at h
  case h_1 subroutine hfind =>
    cases h
    refine ⟨hunfinished, fun hinv => ⟨hinv, ?_⟩⟩
    have hrange : s.range = range := by simpa using List.find?_some hfind
    rw [← hrange]
    exact hinv.subroutines s (List.mem_of_find?_eq_some hfind)
  case h_2 =>
    split at h
    case h_1 => cases h
    case h_2 exitMethod st₁ labels hresult =>
      split at h
      case isTrue => cases h
      case isFalse =>
        split at h
        case h_1 subroutine hfind =>
          cases h
          obtain ⟨hbefore, hpost⟩ := hscan _ _ _ _ _ _ _ hresult hunfinished
          refine ⟨hbefore, ?_⟩
          intro hinv
          obtain ⟨hinv', -⟩ := hpost ⟨hinv.subroutines, hinv.entries⟩
          have hrange : s.range = range := by simpa using List.find?_some hfind
          rw [← hrange]
          exact ⟨hinv', hinv'.subroutines s (List.mem_of_find?_eq_some hfind)⟩
        case h_2 =>
          cases h
          obtain ⟨hbefore, hpost⟩ := hscan _ _ _ _ _ _ _ hresult hunfinished
          refine ⟨hbefore, ?_⟩
          intro hinv
          obtain ⟨hinv', hexit⟩ := hpost ⟨hinv.subroutines, hinv.entries⟩
          refine ⟨⟨?_, hinv'.entries⟩, hexit⟩
          intro s hs
          rcases List.mem_append.mp hs with hs | hs
          · exact hinv'.subroutines s hs
          · rw [List.mem_singleton.mp hs]
            exact hexit

variable {branches : List (Option Range)}

theorem addBranches_exits {add : Analyzer → Range → Except Failure (Subroutine × Analyzer)}
    (hadd : ∀ st range s st', add st range = .ok (s, st') → st'.unfinished = false →
      st.unfinished = false ∧ (ExitInv program st → ExitInv program st' ∧ Determined program range s.exitMethod)) {both : ExitMethod} (h : addBranches add st branches = .ok (both, st'))
    (hunfinished : st'.unfinished = false) :
    st.unfinished = false ∧ (ExitInv program st → ExitInv program st' ∧ BranchesSound program branches both) := by
  induction branches generalizing st both with
  | nil =>
    cases h
    exact ⟨hunfinished, fun hinv => ⟨hinv, ⟨fun _ => rfl, by simp, by simp⟩⟩⟩
  | cons branch branches ih =>
    cases branch with
    | none =>
      rw [addBranches] at h
      split at h
      case h_1 => cases h
      case h_2 rest st₁ hrest =>
        cases h
        obtain ⟨hbefore, hpost⟩ := ih hrest
        refine ⟨hbefore, fun hinv => ⟨(hpost hinv).1, ?_⟩⟩
        exact branchesSound_cons (by decide) (fun h => by cases h) (fun _ range h => by cases h) (hpost hinv).2
    | some range =>
      rw [addBranches] at h
      split at h
      case h_1 => cases h
      case h_2 s st₁ hs =>
        split at h
        case h_1 => cases h
        case h_2 rest st₂ hrest =>
          cases h
          obtain ⟨hbetween, hpost⟩ := ih hrest
          obtain ⟨hbefore, hpost'⟩ := hadd _ _ _ _ hs hbetween
          refine ⟨hbefore, ?_⟩
          intro hinv
          obtain ⟨hinv₁, hne, hsound⟩ := hpost' hinv
          obtain ⟨hinv₂, hbranches⟩ := hpost hinv₁
          refine ⟨hinv₂, branchesSound_cons hne ?_ ?_ hbranches⟩
          · exact fun h => ⟨range, rfl, hsound.1 h⟩
          · intro h r hr
            cases hr
            exact hsound.2 h

theorem determined_jump {stop offset p dest : Nat} {noJmp jmp : ExitMethod}
    (hwalk : WalkSound program stop offset (some (p, .jump dest))) (hno : Determined program (p + 1, stop) noJmp)
    (hjmp : Determined program (dest, stop) jmp) : Determined program (offset, stop) (parallelExit noJmp jmp) := by
  obtain ⟨hp, hflow, hpaths⟩ := hwalk
  refine ⟨parallelExit_ne_undetermined hno.1, ?_, ?_⟩
  · intro hend hreaches
    obtain ⟨hno', hjmp'⟩ := alwaysEnd_of_parallelExit hno.1 hend
    rcases reaches_jump hp hflow (hpaths _ hreaches) with h | h
    · exact hno.2.1 hno' h
    · exact hjmp.2.1 (hjmp'.resolve_right hjmp.1) h
  · intro hreturn hreaches
    obtain ⟨hno', hjmp'⟩ := alwaysReturn_of_parallelExit hno.1 hreturn
    rcases reaches_jump hp hflow (hpaths _ hreaches) with h | h
    · exact hno.2.2 hno' h
    · exact hjmp.2.2 (hjmp'.resolve_right hjmp.1) h

theorem determined_block_end {stop offset p after : Nat} {both : ExitMethod}
    (hwalk : WalkSound program stop offset (some (p, .block branches after)))
    (hbranches : BranchesSound program branches both) (hboth : both = .alwaysEnd) :
    Determined program (offset, stop) .alwaysEnd := by
  obtain ⟨hp, hflow, hpaths⟩ := hwalk
  refine ⟨by decide, ?_, fun h => by cases h⟩
  intro _ hreaches
  rcases reaches_block hp hflow (hpaths _ hreaches) with ⟨h, -⟩ | ⟨-, hskip | ⟨range, hrange, hreturned⟩⟩
  · cases h
  · obtain ⟨range, heq, -⟩ := hbranches.alwaysEnd hboth none hskip
    cases heq
  · obtain ⟨r, heq, hnot⟩ := hbranches.alwaysEnd hboth _ hrange
    cases heq
    exact hnot hreturned

theorem determined_block {stop offset p after : Nat} {both afterCall : ExitMethod}
    (hwalk : WalkSound program stop offset (some (p, .block branches after))) (hne : branches ≠ [])
    (hbranches : BranchesSound program branches both) (hafter : Determined program (after, stop) afterCall) :
    Determined program (offset, stop) (seriesExit both afterCall) := by
  obtain ⟨hp, hflow, hpaths⟩ := hwalk
  have hboth : both ≠ .undetermined := fun h => hne (hbranches.undetermined h)
  refine ⟨seriesExit_ne_undetermined hboth hafter.1, ?_, ?_⟩
  · intro hend hreaches
    have hafterEnd := alwaysEnd_of_seriesExit hboth hafter.1 hend
    rcases reaches_block hp hflow (hpaths _ hreaches) with ⟨h, -⟩ | ⟨h, -⟩
    · cases h
    · exact hafter.2.1 hafterEnd h
  · intro hreturn hreaches
    obtain ⟨hboth', hafterReturn⟩ := alwaysReturn_of_seriesExit hreturn
    rcases reaches_block hp hflow (hpaths _ hreaches) with ⟨-, range, hrange, hended⟩ | ⟨h, -⟩
    · exact hbranches.alwaysReturn hboth' range hrange hended
    · exact hafter.2.2 hafterReturn h

theorem branches_ne_nil {p after : Nat}
    (h : flowAt program p = some (some (.block branches after))) : branches ≠ [] := by
  unfold flowAt at h
  split at h
  case isTrue hp =>
    unfold Instruction.flow at h
    rintro rfl
    split at h <;> simp at h
  case isFalse => cases h

theorem scan_exits (fuel id : Nat) (range : Range) (st : Analyzer) (labels : Finset Nat) :
    ScanExits program range st (scan program fuel id range st labels) := by
  induction fuel generalizing id range st labels with
  | zero =>
    intro exitMethod st' labels' h
    cases h
  | succ fuel ih =>
    intro exitMethod st' labels' h hunfinished
    rw [scan] at h
    split at h
    case h_1 entry hentry =>
      cases h
      obtain ⟨hbefore, hfinished⟩ : st.unfinished = false ∧ entry.finished = true := by
        simpa [answer] using hunfinished
      exact ⟨hbefore, fun hinv => ⟨⟨hinv.subroutines, hinv.entries⟩, hinv.entries range entry hentry hfinished⟩⟩
    case h_2 =>
      dsimp only at h
      split at h
      case h_1 => cases h
      case h_2 hwalk =>
        cases h
        refine ⟨hunfinished, fun hinv => ?_⟩
        have hexit : Determined program range .alwaysReturn :=
          ⟨by decide, (fun h => by cases h), fun _ => walk_sound hwalk⟩
        exact ⟨(hinv.enter range id).leave id hexit, hexit⟩
      case h_3 p hwalk =>
        cases h
        refine ⟨hunfinished, fun hinv => ?_⟩
        obtain ⟨hp, hflow, hpaths⟩ := walk_sound hwalk
        have hexit : Determined program range .alwaysEnd :=
          ⟨by decide, fun _ hreaches => not_returned_of_stop hp hflow (hpaths _ hreaches), fun h => by cases h⟩
        exact ⟨(hinv.enter range id).leave id hexit, hexit⟩
      case h_4 p dest hwalk =>
        split at h
        case h_1 => cases h
        case h_2 noJmp st₁ labels₁ hno =>
          split at h
          case h_1 => cases h
          case h_2 jmp st₂ labels₂ hjmp =>
            cases h
            obtain ⟨hbetween, hpost₂⟩ := ih _ _ _ _ _ _ _ hjmp hunfinished
            obtain ⟨hbefore, hpost₁⟩ := ih _ _ _ _ _ _ _ hno hbetween
            refine ⟨hbefore, fun hinv => ?_⟩
            obtain ⟨hinv₁, hexit₁⟩ := hpost₁ (hinv.enter range id)
            obtain ⟨hinv₂, hexit₂⟩ := hpost₂ hinv₁
            have hexit := determined_jump (walk_sound hwalk) hexit₁ hexit₂
            exact ⟨hinv₂.leave id hexit, hexit⟩
      case h_5 p branches after hwalk =>
        have hwalk := walk_sound hwalk
        have hne := branches_ne_nil hwalk.2.1
        split at h
        case h_1 => cases h
        case h_2 both st₁ hbranches =>
          have hpost := addBranches_exits
            (fun st range s st' hs hst' => addSubroutine_exits ih hs hst') hbranches
          split at h
          case isTrue hboth =>
            cases h
            obtain ⟨hbefore, hpost⟩ := hpost hunfinished
            refine ⟨hbefore, fun hinv => ?_⟩
            obtain ⟨hinv₁, hsound⟩ := hpost (hinv.enter range id)
            have hexit := determined_block_end hwalk hsound hboth
            exact ⟨hinv₁.leave id hexit, hexit⟩
          case isFalse hboth =>
            split at h
            case h_1 => cases h
            case h_2 afterCall st₂ labels₂ hafter =>
              cases h
              obtain ⟨hbetween, hpost₂⟩ := ih _ _ _ _ _ _ _ hafter hunfinished
              obtain ⟨hbefore, hpost₁⟩ := hpost hbetween
              refine ⟨hbefore, fun hinv => ?_⟩
              obtain ⟨hinv₁, hsound⟩ := hpost₁ (hinv.enter range id)
              obtain ⟨hinv₂, hexit₂⟩ := hpost₂ hinv₁
              have hexit := determined_block hwalk hne hsound hexit₂
              exact ⟨hinv₂.leave id hexit, hexit⟩

end Analyzer

end SweepDSEmu.VideoCore.Shader
