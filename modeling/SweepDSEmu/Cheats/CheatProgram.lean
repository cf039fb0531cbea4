import SweepDSEmu.Cheats.CheatRun

/-!
# Cheats as lists of instructions

An instruction is a line with its data.  A turn at the line of an instruction, unless it belongs to a loop, leads to the
line of the next instruction; so the data of a patch are not run.
-/

namespace SweepDSEmu.Cheats

structure Instruction where
  line : CheatLine
  data : List CheatLine
  fits : data.length = if line.type = .patch then patchLines line else 0

namespace Instruction

def lines (i : Instruction) : List CheatLine := i.line :: i.data

theorem length_lines (i : Instruction) : i.lines.length = i.data.length + 1 := rfl

def IsPlain (i : Instruction) : Prop := i.line.type = .patch ∨ i.line.type.moves = false

end Instruction

def programLines (program : List Instruction) : List CheatLine := program.flatMap Instruction.lines

def positions (start : Nat) : List Instruction → List Nat
  | [] => []
  | i :: program => start :: positions (start + i.lines.length) program

theorem programLines_cons (i : Instruction) (program : List Instruction) :
    programLines (i :: program) = i.lines ++ programLines program := List.flatMap_cons

section

variable {M : Type} {host : CheatMemory M} {lines pre post : List CheatLine} {i : Instruction} {x : State × M}

theorem getElem?_line (hlines : lines = pre ++ (i.lines ++ post)) (hcurrent : x.1.currentLineNr = pre.length) :
    lines[x.1.currentLineNr]? = some i.line := by
  rw [hlines, hcurrent, List.getElem?_append_right (Nat.le_refl _), Nat.sub_self]
  rfl

theorem lines_lt (hlines : lines = pre ++ (i.lines ++ post)) (hcurrent : x.1.currentLineNr = pre.length) :
    x.1.currentLineNr + i.data.length < lines.length := by
  rw [hlines, hcurrent, List.length_append, List.length_append, i.length_lines]
  omega

theorem length_dataBytes (data : List CheatLine) : (dataBytes data).length = 8 * data.length := by
  induction data with
  | nil => rfl
  | cons line data ih =>
    have hcons : dataBytes (line :: data) = wordBytes line.first ++ wordBytes line.value ++ dataBytes data := rfl
    rw [hcons, List.length_append, List.length_append, length_wordBytes, length_wordBytes, ih, List.length_cons]
    omega

theorem patchData_eq (hlines : lines = pre ++ (i.lines ++ post)) (hcurrent : x.1.currentLineNr = pre.length)
    (htype : i.line.type = .patch) :
    patchData lines x.1.currentLineNr i.line = (dataBytes i.data).take i.line.value.toNat := by
  have hdrop : lines.drop (x.1.currentLineNr + 1) = i.data ++ post := by
    rw [hlines, hcurrent, List.drop_append, List.drop_eq_nil_of_le (Nat.le_succ _), Nat.add_sub_cancel_left]
    rfl
  have hfits := i.fits
  rw [if_pos htype, patchLines] at hfits
  rw [patchData, hdrop, dataBytes, List.flatMap_append, ← dataBytes, ← dataBytes,
    List.take_append_of_le_length (by rw [length_dataBytes]; omega)]

theorem nextLine_current {s : State} (m : M) (hsmall : lines.length < 2 ^ 63)
    (hlines : lines = pre ++ (i.lines ++ post)) (hcurrent : s.currentLineNr = pre.length + i.data.length) :
    (nextLine (s, m)).1.currentLineNr = pre.length + i.lines.length := by
  have hlength : pre.length + i.lines.length ≤ lines.length := by
    rw [hlines, List.length_append, List.length_append]
    omega
  rw [i.length_lines] at hlength ⊢
  show (s.currentLineNr + 1) % 2 ^ 64 = _
  omega

theorem plain_turn (host : CheatMemory M) (hsmall : lines.length < 2 ^ 63) (hlines : lines = pre ++ (i.lines ++ post))
    (hcurrent : x.1.currentLineNr = pre.length) (hplain : i.IsPlain) :
    ∃ y, turn host lines x = .ok y ∧ y.1.currentLineNr = pre.length + i.lines.length ∧
      y.1.loopFlag = x.1.loopFlag ∧ y.1.loopBackLine = x.1.loopBackLine ∧ y.1.loopCount = x.1.loopCount := by
  have hline := getElem?_line hlines hcurrent
  have hlt := lines_lt hlines hcurrent
  have hfits := i.fits
  have hsame {s' : State} {m' : M} (hdata : i.data.length = 0) (h : SameLoop x.1 s') :
      (nextLine (s', m')).1.currentLineNr = pre.length + i.lines.length :=
    nextLine_current m' hsmall hlines (by rw [hdata, h.current, hcurrent, Nat.add_zero])
  by_cases hpatch : i.line.type = .patch
  · rw [if_pos hpatch] at hfits
    have hnext (m : M) := nextLine_current (s := { x.1 with currentLineNr := x.1.currentLineNr + patchLines i.line })
      m hsmall hlines (by rw [hfits, hcurrent])
    by_cases hflag : x.1.ifFlag > 0
    · rw [turn_skips hline hflag, skipLine_patch hpatch, patchOp_skips hflag, ok_bind]
      exact ⟨_, rfl, hnext x.2, rfl, rfl, rfl⟩
    · rw [turn_runs hline hflag, runLine_patch hpatch, patchOp_writes hflag (by omega), ok_bind]
      exact ⟨_, rfl, hnext _, rfl, rfl, rfl⟩
  · rw [if_neg hpatch] at hfits
    have hmoves := hplain.resolve_left hpatch
    by_cases hflag : x.1.ifFlag > 0
    · have hterminator : i.line.type ≠ .fullTerminator := fun h => by
        rw [h] at hmoves
        cases hmoves
      obtain ⟨s', m', hskip, h⟩ := skipLine_sameLoop host lines hpatch hterminator x.1 x.2
      rw [turn_skips hline hflag, hskip, ok_bind]
      exact ⟨_, rfl, hsame hfits h, h.flag, h.back, h.count⟩
    · obtain ⟨s', m', hrun, h⟩ := runLine_sameLoop host lines hmoves x.1 x.2
      rw [turn_runs hline hflag, hrun, ok_bind]
      exact ⟨_, rfl, hsame hfits h, h.flag, h.back, h.count⟩

inductive Runs (host : CheatMemory M) (lines : List CheatLine) : State × M → List Nat → State × M → Prop where
  | refl (x : State × M) : Runs host lines x [] x
  | turn {x y z : State × M} {trace : List Nat} (hturn : BoundedLoop.Turn (finished lines) (turn host lines) x y)
      (hruns : Runs host lines y trace z) : Runs host lines x (x.1.currentLineNr :: trace) z

variable {y z : State × M} {trace trace' : List Nat}

theorem Runs.append (h : Runs host lines x trace y) (h' : Runs host lines y trace' z) :
    Runs host lines x (trace ++ trace') z := by
  induction h with
  | refl => exact h'
  | turn hturn _ ih => exact .turn hturn (ih h')

theorem Runs.det (h : Runs host lines x trace y) (h' : Runs host lines x trace z) : y = z := by
  induction h with
  | refl =>
    cases h'
    rfl
  | turn hturn _ ih =>
    cases h' with
    | turn hturn' hruns' =>
      obtain rfl := Except.ok.inj (hturn.2.symm.trans hturn'.2)
      exact ih hruns'

theorem Runs.of_append (h : Runs host lines x (trace ++ trace') z) :
    ∃ y, Runs host lines x trace y ∧ Runs host lines y trace' z := by
  induction trace generalizing x with
  | nil => exact ⟨x, .refl x, h⟩
  | cons n trace ih =>
    cases h with
    | turn hturn hruns =>
      obtain ⟨y, hy, hz⟩ := ih hruns
      exact ⟨y, .turn hturn hy, hz⟩

theorem plain_runs (host : CheatMemory M) (pre : List CheatLine) (x : State × M) (hsmall : lines.length < 2 ^ 63)
    (program : List Instruction)
    (hlines : lines = pre ++ (programLines program ++ post)) (hcurrent : x.1.currentLineNr = pre.length)
    (hplain : ∀ i ∈ program, i.IsPlain) :
    ∃ y, Runs host lines x (positions pre.length program) y ∧
      y.1.currentLineNr = pre.length + (programLines program).length ∧ y.1.loopFlag = x.1.loopFlag ∧
      y.1.loopBackLine = x.1.loopBackLine ∧ y.1.loopCount = x.1.loopCount := by
  induction program generalizing pre x with
  | nil => exact ⟨x, .refl x, hcurrent, rfl, rfl, rfl⟩
  | cons i program ih =>
    have hi : lines = pre ++ (i.lines ++ (programLines program ++ post)) := by
      rw [hlines, programLines_cons, List.append_assoc]
    obtain ⟨y, hturn, hy, hflag, hback, hcount⟩ := plain_turn host hsmall hi hcurrent
      (hplain i List.mem_cons_self)
    obtain ⟨z, hruns, hz, hflag', hback', hcount'⟩ := ih (pre ++ i.lines) y
      (by rw [hi, List.append_assoc]) (by rw [hy, List.length_append]) fun i hi => hplain i (List.mem_cons_of_mem _ hi)
    rw [List.length_append] at hruns hz
    have hlt := lines_lt hi hcurrent
    refine ⟨z, ?_, ?_, hflag'.trans hflag, hback'.trans hback, hcount'.trans hcount⟩
    · have hrun := Runs.turn ⟨finished_iff.mpr (by omega), hturn⟩ hruns
      rwa [hcurrent] at hrun
    · rw [hz, programLines_cons, List.length_append, Nat.add_assoc]

end

end SweepDSEmu.Cheats
