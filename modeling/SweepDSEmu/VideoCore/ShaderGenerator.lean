import SweepDSEmu.VideoCore.ShaderControlFlow
import SweepDSEmu.Lib.SwitchLoop
import Mathlib.Data.Finset.Max

/-!
# Generated code of subroutines

The functions that `GLSLGenerator::Generate` writes for the subroutines of a shader, and what they do.

* `Line` is what `CompileInstr` writes for an instruction.  Only the control flow is kept; what an instruction computes
  is left to a `Machine`, and so are the conditions.
* A function calls the functions of other subroutines.  What these do is a parameter; `true` is what they return when
  the program has ended.
* `Segment` says what is to be done from an offset: up to the next jump that is taken, to the end of the program, or to
  the return point.
-/

namespace SweepDSEmu.VideoCore.Shader

open SwitchLoop

inductive Line where
  | instr (offset : Nat)
  | returnValue (value : Bool)
  /-- `if (condition) { jmp_to = dest; break; }` -/
  | jump (offset dest : Nat)
  /-- `{ jmp_to = dest; break; }` -/
  | jumpTo (dest : Nat)
  | call (offset : Nat) (conditional : Bool) (sub : Subroutine)
  | ifElse (offset : Nat) (ifSub : Subroutine) (elseSub : Option Subroutine)
  | loop (offset : Nat) (loopSub : Subroutine)
  deriving DecidableEq

inductive Body where
  | straight (lines : List Line)
  | switch (cases : List (Nat × List Line))
  deriving DecidableEq

def getSubroutine (subroutines : List Subroutine) (range : Range) : Except Failure Subroutine :=
  match subroutines.find? fun s => s.range = range with
  | some s => .ok s
  | none => .error .assertFailed

section Generator

variable (handled : Nat → Bool) (program : ProgramCode) (subroutines : List Subroutine)

def compileInstr (offset : Nat) : Except Failure (Line × Nat) :=
  if h : offset < programEnd then
    let instr := program ⟨offset, h⟩
    let endOffset := instr.destOffset + instr.numInstructions
    match instr.opcode with
    | .endProgram => .ok (.returnValue true, programEnd)
    | .jmpc | .jmpu => .ok (.jump offset instr.destOffset, offset + 1)
    | .call =>
      match getSubroutine subroutines (instr.destOffset, endOffset) with
      | .error e => .error e
      | .ok sub => .ok (.call offset false sub, if sub.exitMethod = .alwaysEnd then programEnd else offset + 1)
    | .callc | .callu =>
      match getSubroutine subroutines (instr.destOffset, endOffset) with
      | .error e => .error e
      | .ok sub => .ok (.call offset true sub, offset + 1)
    | .ifc | .ifu =>
      match getSubroutine subroutines (offset + 1, instr.destOffset) with
      | .error e => .error e
      | .ok ifSub =>
        if instr.numInstructions ≠ 0 then
          match getSubroutine subroutines (instr.destOffset, endOffset) with
          | .error e => .error e
          | .ok elseSub =>
            .ok (.ifElse offset ifSub (some elseSub),
              if ifSub.exitMethod = .alwaysEnd ∧ elseSub.exitMethod = .alwaysEnd then programEnd else endOffset)
        else .ok (.ifElse offset ifSub none, instr.destOffset)
    | .loop =>
      match getSubroutine subroutines (offset + 1, instr.destOffset + 1) with
      | .error e => .error e
      | .ok loopSub =>
        .ok (.loop offset loopSub, if loopSub.exitMethod = .alwaysEnd then programEnd else instr.destOffset + 1)
    | .other id =>
      if handled id then .ok (.instr offset, offset + 1) else .error (.decompileFail "Unhandled instruction")
  else .error .outOfBounds

/-- The loop of `CompileRange`, up to where it stops. -/
def compileUntil (stop : Nat) : Nat → Nat → Except Failure (List Line × Nat)
  | 0, _ => .error .outOfFuel
  | fuel + 1, offset =>
    if offset < stop then
      match compileInstr handled program subroutines offset with
      | .error e => .error e
      | .ok (line, next) =>
        match compileUntil stop fuel next with
        | .error e => .error e
        | .ok (lines, compileEnd) => .ok (line :: lines, compileEnd)
    else .ok ([], offset)

def compileRange (fuel first stop : Nat) : Except Failure (List Line × Nat) :=
  compileUntil handled program subroutines (if stop < first then programEnd else stop) fuel first

def nextLabel (labels : Finset Nat) (label : Nat) : Option Nat :=
  let later := labels.filter (label < ·)
  if h : later.Nonempty then some (later.min' h) else none

/-- The loop of `Generate` over the labels, to which labels behind the current one are added. -/
def compileCases (stop : Nat) : Nat → Finset Nat → Nat → Except Failure (List (Nat × List Line))
  | 0, _, _ => .error .outOfFuel
  | fuel + 1, labels, label =>
    let caseEnd := (nextLabel labels label).getD stop
    match compileRange handled program subroutines (fuel + 1) label caseEnd with
    | .error e => .error e
    | .ok (lines, compileEnd) =>
      -- this happens only when there is a label inside a block
      let skips := caseEnd < compileEnd ∧ compileEnd ≠ programEnd
      let lines := if skips then lines ++ [.jumpTo compileEnd] else lines
      let labels := if skips then insert compileEnd labels else labels
      match nextLabel labels label with
      | none => .ok [(label, lines)]
      | some next =>
        match compileCases stop fuel labels next with
        | .error e => .error e
        | .ok rest => .ok ((label, lines) :: rest)

def generate (fuel : Nat) (s : Subroutine) : Except Failure Body :=
  if s.labels = ∅ then
    match compileRange handled program subroutines fuel s.range.1 s.range.2 with
    | .error e => .error e
    | .ok (lines, compileEnd) =>
      .ok (.straight (if compileEnd ≠ programEnd then lines ++ [.returnValue false] else lines))
  else
    let labels := insert s.range.1 s.labels
    let first := labels.min' ⟨_, Finset.mem_insert_self _ _⟩
    match compileCases handled program subroutines s.range.2 fuel labels first with
    | .error e => .error e
    | .ok cases => .ok (.switch cases)

end Generator

/-- What instructions compute, for states of a machine. -/
structure Machine (σ : Type*) where
  exec : Nat → σ → σ
  test : Nat → σ → Bool
  loopStart : Nat → σ → σ
  /-- How often a loop is repeated after its first time. -/
  loopCount : Nat → σ → Nat
  loopNext : Nat → σ → σ

section Run

variable {σ : Type*} (m : Machine σ)

def loopRuns (body : σ → σ → Bool → Prop) (offset : Nat) : Nat → σ → σ → Bool → Prop
  | 0, s, s', ended => s' = s ∧ ended = false
  | times + 1, s, s', ended => ∃ s₁ first, body s s₁ first ∧
      if first then s' = s₁ ∧ ended = true else loopRuns body offset times (m.loopNext offset s₁) s' ended

variable (function : Range → σ → σ → Bool → Prop)

/-- What `CallSubroutine` writes: `true` where the caller returns, too. -/
def callRuns (sub : Subroutine) (s s' : σ) (ended : Bool) : Prop :=
  match sub.exitMethod with
  | .alwaysEnd => ended = true ∧ ∃ value, function sub.range s s' value
  | .conditional => function sub.range s s' ended
  | .alwaysReturn | .undetermined => ended = false ∧ ∃ value, function sub.range s s' value

def leaveOf (ended : Bool) : Leave := if ended then .returns true else .falls

def Line.Runs : Line → σ → σ → Leave → Prop
  | .instr offset, s, s', leave => s' = m.exec offset s ∧ leave = .falls
  | .returnValue value, s, s', leave => s' = s ∧ leave = .returns value
  | .jump offset dest, s, s', leave => s' = s ∧ leave = if m.test offset s then .jumps dest else .falls
  | .jumpTo dest, s, s', leave => s' = s ∧ leave = .goes dest
  | .call offset conditional sub, s, s', leave =>
    if conditional = false ∨ m.test offset s then ∃ ended, callRuns function sub s s' ended ∧ leave = leaveOf ended
    else s' = s ∧ leave = .falls
  | .ifElse offset ifSub elseSub, s, s', leave =>
    if m.test offset s then ∃ ended, callRuns function ifSub s s' ended ∧ leave = leaveOf ended
    else
      match elseSub with
      | some elseSub => ∃ ended, callRuns function elseSub s s' ended ∧ leave = leaveOf ended
      | none => s' = s ∧ leave = .falls
  | .loop offset loopSub, s, s', leave =>
    ∃ ended, loopRuns m (callRuns function loopSub) offset (m.loopCount offset s + 1) (m.loopStart offset s) s' ended ∧
      leave = leaveOf ended

def Body.RunsFrom : Body → Nat → σ → σ → Result → Prop
  | .straight lines, _, s, s', result =>
    ∃ value, Sequence (Line.Runs m function) lines s s' (.returns value) ∧ result = .returned value
  | .switch cases, label, s, s', result => Dispatches (Line.Runs m function) cases label s s' result

inductive Next where
  | offset (next : Nat)
  | ended
  | jumped (dest : Nat)
  deriving DecidableEq

def nextOf (ended : Bool) (after : Nat) : Next := if ended then .ended else .offset after

def Instruction.Runs (instr : Instruction) (offset : Nat) (s s' : σ) (next : Next) : Prop :=
  let callee := (instr.destOffset, instr.destOffset + instr.numInstructions)
  match instr.opcode with
  | .endProgram => s' = s ∧ next = .ended
  | .jmpc | .jmpu => s' = s ∧ next = if m.test offset s then .jumped instr.destOffset else .offset (offset + 1)
  | .call => ∃ ended, function callee s s' ended ∧ next = nextOf ended (offset + 1)
  | .callc | .callu =>
    if m.test offset s then ∃ ended, function callee s s' ended ∧ next = nextOf ended (offset + 1)
    else s' = s ∧ next = .offset (offset + 1)
  | .ifc | .ifu =>
    if m.test offset s then
      ∃ ended, function (offset + 1, instr.destOffset) s s' ended ∧
        next = nextOf ended (instr.destOffset + instr.numInstructions)
    else if instr.numInstructions ≠ 0 then
      ∃ ended, function callee s s' ended ∧ next = nextOf ended (instr.destOffset + instr.numInstructions)
    else s' = s ∧ next = .offset (instr.destOffset + instr.numInstructions)
  | .loop =>
    ∃ ended, loopRuns m (function (offset + 1, instr.destOffset + 1)) offset (m.loopCount offset s + 1)
      (m.loopStart offset s) s' ended ∧ next = nextOf ended (instr.destOffset + 1)
  | .other _ => s' = m.exec offset s ∧ next = .offset (offset + 1)

/-- What is done from an offset up to the return point, `false`, the end of the program, `true`, or a jump. -/
inductive Segment (program : ProgramCode) (stop : Nat) : Nat → σ → σ → Result → Prop where
  | returned (s : σ) : Segment program stop stop s s (.returned false)
  | next {offset next : Nat} {s s₁ s' : σ} {result : Result} (hoffset : offset < programEnd) (hstop : offset ≠ stop)
      (hinstr : (program ⟨offset, hoffset⟩).Runs m function offset s s₁ (.offset next))
      (hnext : Segment program stop next s₁ s' result) : Segment program stop offset s s' result
  | ended {offset : Nat} {s s' : σ} (hoffset : offset < programEnd) (hstop : offset ≠ stop)
      (hinstr : (program ⟨offset, hoffset⟩).Runs m function offset s s' .ended) :
      Segment program stop offset s s' (.returned true)
  | jumped {offset dest : Nat} {s s' : σ} (hoffset : offset < programEnd) (hstop : offset ≠ stop)
      (hinstr : (program ⟨offset, hoffset⟩).Runs m function offset s s' (.jumped dest)) :
      Segment program stop offset s s' (.jumped dest)

end Run

def RightExits {σ : Type*} (subroutines : List Subroutine) (function : Range → σ → σ → Bool → Prop) : Prop :=
  ∀ s ∈ subroutines, s.exitMethod ≠ .undetermined ∧ ∀ st st' value, function s.range st st' value →
    (s.exitMethod = .alwaysEnd → value = true) ∧ (s.exitMethod = .alwaysReturn → value = false)

section Path

variable (program : ProgramCode) (subroutines : List Subroutine)

def alwaysEnds (branches : List (Option Range)) : Bool :=
  branches.all fun branch =>
    match branch with
    | none => false
    | some range => (subroutines.find? fun s => s.range = range).map Subroutine.exitMethod = some .alwaysEnd

def nextOffset (offset : Nat) : Option Nat :=
  match flowAt program offset with
  | none => none
  | some none => some (offset + 1)
  | some (some .stop) => none
  | some (some (.jump _)) => some (offset + 1)
  | some (some (.block branches after)) => if alwaysEnds subroutines branches then none else some after

/-- The offset comes after the beginning or a label of the subroutine when no jump is taken, before the return point. -/
def Entered (s : Subroutine) (offset : Nat) : Prop :=
  ∃ label ∈ insert s.range.1 s.labels,
    Relation.ReflTransGen (fun p q => p ≠ s.range.2 ∧ nextOffset program subroutines p = some q) label offset

/-- Running straight on stays in the program, and either in front of the return point or clear of it; where there is no
label there is no jump. -/
structure Kept (s : Subroutine) : Prop where
  inside : ∀ offset, Entered program subroutines s offset → offset < programEnd
  cut : (∀ offset, Entered program subroutines s offset → offset ≤ s.range.2) ∨
    ((∀ offset, Entered program subroutines s offset → offset ≠ s.range.2) ∧ (s.labels = ∅ → s.range.2 < s.range.1))
  labelled : s.labels = ∅ → ∀ offset dest, Entered program subroutines s offset →
    flowAt program offset ≠ some (some (.jump dest))

/-- In front of the return point the instructions can be compiled, and blocks end behind their beginning. -/
structure Compilable (handled : Nat → Bool) (s : Subroutine) : Prop where
  stop_le : s.range.2 ≤ programEnd
  instr : ∀ offset, Entered program subroutines s offset → offset ≠ s.range.2 →
    ∃ compiled, compileInstr handled program subroutines offset = .ok compiled
  forward : ∀ offset next, Entered program subroutines s offset → offset ≠ s.range.2 →
    nextOffset program subroutines offset = some next → offset < next

end Path

end SweepDSEmu.VideoCore.Shader
