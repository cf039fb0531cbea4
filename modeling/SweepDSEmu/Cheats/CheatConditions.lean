import SweepDSEmu.Cheats.CheatProgram

/-!
# Conditions of cheats

What a cheat without loops means: each condition encloses the instructions up to its terminator, a full terminator ends
all of them, and an instruction is executed when all the conditions that enclose it have held.  `Execute` follows this
meaning, with a flag in place of the conditions: it counts them from the outermost one that has not held.
-/

namespace SweepDSEmu.Cheats

variable {M : Type} (host : CheatMemory M)

/-- The state of a cheat, with the conditions that are open, the innermost one first: whether they have held. -/
structure NestedState (M : Type) where
  enclosing : List Bool
  reg : UInt32
  offset : UInt32
  mem : M

def NestedState.active (e : NestedState M) : Bool := e.enclosing.all id

def CheatLine.holds (line : CheatLine) (offset : UInt32) (m : M) : Bool :=
  let word := host.read32 m (line.address + offset)
  let half := maskedHalf line (host.read16 m (line.address + offset))
  match line.type with
  | .greaterThan32 => line.value > word
  | .lessThan32 => line.value < word
  | .equalTo32 => line.value == word
  | .notEqualTo32 => line.value != word
  | .greaterThan16WithMask => line.value.toUInt16 > half
  | .lessThan16WithMask => line.value.toUInt16 < half
  | .equalTo16WithMask => line.value.toUInt16 == half
  | .notEqualTo16WithMask => line.value.toUInt16 != half
  | .joker => host.padState m &&& line.value == line.value
  | _ => true

/-- An instruction that is executed, unless it is a condition or a terminator.  A patch of `n` bytes writes the first
`n` bytes of its data. -/
def operate (i : Instruction) (e : NestedState M) : NestedState M :=
  if i.line.type = .patch then
    { e with
      mem := applyWrites host e.mem
        (patchWrites (i.line.address + e.offset) ((dataBytes i.data).take i.line.value.toNat)) }
  else
    match runLine host [] i.line { reg := e.reg, offset := e.offset } e.mem with
    | .ok (s, m) => { e with reg := s.reg, offset := s.offset, mem := m }
    | .error _ => e

def nestedStep (e : NestedState M) (i : Instruction) : NestedState M :=
  if i.line.type.isCondition then
    { e with enclosing := (e.active && i.line.holds host e.offset e.mem) :: e.enclosing }
  else
    match i.line.type with
    | .terminator => { e with enclosing := e.enclosing.tail }
    | .fullTerminator => { e with enclosing := [], reg := 0, offset := 0 }
    | _ => if e.active then operate host i e else e

def nestedRun (program : List Instruction) (m : M) : NestedState M :=
  program.foldl (nestedStep host) { enclosing := [], reg := 0, offset := 0, mem := m }

def openConditions (program : List Instruction) : Nat :=
  program.foldl (fun n i =>
    if i.line.type.isCondition then n + 1
    else
      match i.line.type with
      | .terminator => n - 1
      | .fullTerminator => 0
      | _ => n) 0

/-- The number of open conditions from the outermost one that has not held. -/
def openFailed : List Bool → Nat
  | [] => 0
  | held :: enclosing => if openFailed enclosing > 0 then openFailed enclosing + 1 else if held then 0 else 1

theorem openFailed_le (enclosing : List Bool) : openFailed enclosing ≤ enclosing.length := by
  induction enclosing with
  | nil => exact Nat.le_refl 0
  | cons held enclosing ih =>
    rw [openFailed, List.length_cons]
    split
    · omega
    · split <;> omega

theorem openFailed_eq_zero {enclosing : List Bool} : openFailed enclosing = 0 ↔ enclosing.all id = true := by
  induction enclosing with
  | nil => simp [openFailed]
  | cons held enclosing ih =>
    rw [openFailed, List.all_cons, Bool.and_eq_true, ← ih]
    by_cases hfailed : openFailed enclosing > 0
    · rw [if_pos hfailed]
      omega
    · rw [if_neg hfailed]
      cases held with
      | true => simp; omega
      | false => simp

theorem openFailed_tail {enclosing : List Bool} (h : openFailed enclosing > 0) :
    openFailed enclosing = openFailed enclosing.tail + 1 := by
  cases enclosing with
  | nil => exact absurd h (Nat.lt_irrefl 0)
  | cons held enclosing =>
    rw [openFailed] at h ⊢
    split
    · rfl
    · rename_i hzero
      cases held with
      | true => simp [hzero] at h
      | false => simp; omega

section

variable {host} {lines : List CheatLine} {i : Instruction} {e : NestedState M}

theorem compOp_eq {T : Type} (read : M → UInt32 → T) (comp : T → Bool) (line : CheatLine) (s : State) (m : M) :
    compOp read comp line s m =
      { s with ifFlag := if comp (read m (line.address + s.offset)) then s.ifFlag else s.ifFlag + 1 } := by
  unfold compOp
  by_cases hcomp : comp (read m (line.address + s.offset)) = true
  · rw [if_neg (not_not_intro hcomp), if_pos hcomp]
  · rw [if_pos hcomp, if_neg hcomp]

theorem runLine_condition (lines : List CheatLine) {line : CheatLine} (hcondition : line.type.isCondition) (s : State)
    (m : M) : runLine host lines line s m =
      .ok ({ s with ifFlag := if line.holds host s.offset m then s.ifFlag else s.ifFlag + 1 }, m) := by
  unfold runLine CheatLine.holds
  cases htype : line.type
  case joker =>
    unfold jokerOp
    by_cases hpressed : (host.padState m &&& line.value == line.value) = true
    · rw [if_neg (not_not_intro hpressed), if_pos hpressed]
    · rw [if_pos hpressed, if_neg hpressed]
  all_goals
    first
      | (rw [htype] at hcondition; exact absurd hcondition (by decide))
      | (dsimp only; rw [compOp_eq])

def CheatType.operates : CheatType → Bool
  | .loop | .terminator | .fullTerminator | .patch => false
  | type => ¬ type.isCondition

theorem operate_enclosing (i : Instruction) (e : NestedState M) : (operate host i e).enclosing = e.enclosing := by
  unfold operate
  split
  · rfl
  · split <;> rfl

structure Operated (s s' : State) (m' : M) (e : NestedState M) : Prop where
  current : s'.currentLineNr = s.currentLineNr
  loop : s'.loopFlag = s.loopFlag
  flag : s'.ifFlag = s.ifFlag
  reg : s'.reg = e.reg
  offset : s'.offset = e.offset
  mem : m' = e.mem

theorem runLine_operate (host : CheatMemory M) (lines : List CheatLine) (hoperates : i.line.type.operates) {s : State}
    (hreg : s.reg = e.reg) (hoffset : s.offset = e.offset) (hloop : s.loopFlag = false) :
    ∃ s' m', runLine host lines i.line s e.mem = .ok (s', m') ∧ Operated s s' m' (operate host i e) := by
  obtain ⟨reg, offset, ifFlag, loopCount, loopBackLine, currentLineNr, loopFlag⟩ := s
  subst hreg hoffset hloop
  unfold operate runLine
  cases htype : i.line.type
  all_goals
    first
      | (rw [htype] at hoperates; exact absurd hoperates (by decide))
      | exact ⟨_, _, rfl, rfl, rfl, rfl, rfl, rfl, rfl⟩

/-- The run is at a line, with the state that the meaning of the cheat has there. -/
structure Simulates (start : Nat) (e : NestedState M) (x : State × M) : Prop where
  current : x.1.currentLineNr = start
  reg : x.1.reg = e.reg
  offset : x.1.offset = e.offset
  mem : x.2 = e.mem
  flag : x.1.ifFlag.toNat = openFailed e.enclosing
  loop : x.1.loopFlag = false

variable {pre post : List CheatLine} {start : Nat} {x : State × M}

theorem Simulates.skips_iff (h : Simulates start e x) : x.1.ifFlag > 0 ↔ e.active = false := by
  have hactive : e.active = true ↔ openFailed e.enclosing = 0 := openFailed_eq_zero.symm
  rw [← Bool.not_eq_true, hactive, ← h.flag]
  show 0 < x.1.ifFlag ↔ _
  exact Nat.pos_iff_ne_zero

private theorem toNat_succ {flag : UInt32} {n : Nat} (h : flag.toNat = n) (hn : n + 1 < 2 ^ 32) :
    (flag + 1).toNat = n + 1 := by
  rw [UInt32.toNat_add, h]
  exact Nat.mod_eq_of_lt hn

variable (hsmall : lines.length < 2 ^ 63) (hlines : lines = pre ++ (i.lines ++ post))

include hsmall hlines

section

variable (h : Simulates pre.length e x)

include h

private theorem Simulates.next (hpatch : i.line.type ≠ .patch) {s : State} (m : M)
    (hs : s.currentLineNr = x.1.currentLineNr) :
    (nextLine (s, m)).1.currentLineNr = pre.length + i.lines.length := by
  have hdata : i.data.length = 0 := by rw [i.fits, if_neg hpatch]
  exact nextLine_current m hsmall hlines (by rw [hdata, hs, h.current, Nat.add_zero])

private theorem Simulates.condition (hcondition : i.line.type.isCondition)
    (hdepth : e.enclosing.length + 1 < 2 ^ 32) :
    ∃ y, turn host lines x = .ok y ∧ Simulates (pre.length + i.lines.length) (nestedStep host e i) y := by
  have hline := getElem?_line hlines h.current
  have hpatch : i.line.type ≠ .patch := fun hpatch => by
    rw [hpatch] at hcondition
    cases hcondition
  have hle := openFailed_le e.enclosing
  unfold nestedStep
  rw [if_pos hcondition]
  by_cases hskips : x.1.ifFlag > 0
  · have hskip : skipLine host lines i.line x.1 x.2 = .ok ({ x.1 with ifFlag := x.1.ifFlag + 1 }, x.2) :=
      if_pos hcondition
    rw [turn_skips hline hskips, hskip, ok_bind]
    refine ⟨_, rfl, h.next hsmall hlines hpatch _ rfl, h.reg, h.offset, h.mem, ?_, h.loop⟩
    have hfailed : openFailed e.enclosing > 0 := h.flag ▸ UInt32.lt_iff_toNat_lt.mp hskips
    show (x.1.ifFlag + 1).toNat = _
    rw [toNat_succ h.flag (by omega), openFailed, if_pos hfailed]
  · rw [turn_runs hline hskips, runLine_condition lines hcondition, ok_bind]
    refine ⟨_, rfl, h.next hsmall hlines hpatch _ rfl, h.reg, h.offset, h.mem, ?_, h.loop⟩
    have hactive : e.active = true := by
      rw [h.skips_iff, Bool.not_eq_false] at hskips
      exact hskips
    have hzero : openFailed e.enclosing = 0 := openFailed_eq_zero.mpr hactive
    rw [openFailed, hzero, if_neg (Nat.lt_irrefl 0), hactive, Bool.true_and, h.offset, h.mem]
    split
    · exact h.flag.trans hzero
    · exact toNat_succ (h.flag.trans hzero) (by decide)

private theorem Simulates.terminator (htype : i.line.type = .terminator) :
    ∃ y, turn host lines x = .ok y ∧ Simulates (pre.length + i.lines.length) (nestedStep host e i) y := by
  have hline := getElem?_line hlines h.current
  have hpatch : i.line.type ≠ .patch := fun hpatch => nomatch htype.symm.trans hpatch
  have hturn : turn host lines x = .ok (nextLine (terminateOp x.1, x.2)) := by
    rw [turn_eq hline, skipLine, runLine, htype]
    split <;> rfl
  have hstep : nestedStep host e i = { e with enclosing := e.enclosing.tail } := by
    rw [nestedStep, htype]
    rfl
  have hsame := terminateOp_sameLoop x.1
  rw [hturn, hstep]
  refine ⟨_, rfl, h.next hsmall hlines hpatch _ hsame.current, ?_, ?_, h.mem, ?_, hsame.flag.trans h.loop⟩
  · unfold terminateOp
    split <;> exact h.reg
  · unfold terminateOp
    split <;> exact h.offset
  · by_cases hskips : x.1.ifFlag > 0
    · have hfailed : openFailed e.enclosing > 0 := h.flag ▸ UInt32.lt_iff_toNat_lt.mp hskips
      have htail := openFailed_tail hfailed
      have hflag := h.flag
      rw [terminateOp, if_pos hskips]
      show (x.1.ifFlag - 1).toNat = openFailed e.enclosing.tail
      rw [UInt32.toNat_sub_of_le _ _ (UInt32.le_iff_toNat_le.mpr (by show 1 ≤ _; omega))]
      show x.1.ifFlag.toNat - 1 = _
      omega
    · rw [terminateOp, if_neg hskips]
      show x.1.ifFlag.toNat = openFailed e.enclosing.tail
      have hactive : e.active = true := by
        rw [h.skips_iff, Bool.not_eq_false] at hskips
        exact hskips
      have hzero : openFailed e.enclosing = 0 := openFailed_eq_zero.mpr hactive
      have htail : openFailed e.enclosing.tail = 0 :=
        openFailed_eq_zero.mpr (List.all_eq_true.mpr fun held hheld =>
          List.all_eq_true.mp hactive held (List.mem_of_mem_tail hheld))
      rw [h.flag, hzero, htail]

private theorem Simulates.fullTerminator (htype : i.line.type = .fullTerminator) :
    ∃ y, turn host lines x = .ok y ∧ Simulates (pre.length + i.lines.length) (nestedStep host e i) y := by
  have hline := getElem?_line hlines h.current
  have hpatch : i.line.type ≠ .patch := fun hpatch => nomatch htype.symm.trans hpatch
  have hturn : turn host lines x = .ok (nextLine (fullTerminateOp x.1, x.2)) := by
    rw [turn_eq hline, skipLine, runLine, htype]
    split <;> rfl
  have hstep : nestedStep host e i = { e with enclosing := [], reg := 0, offset := 0 } := by
    rw [nestedStep, htype]
    rfl
  rw [hturn, hstep, fullTerminateOp, if_neg (by rw [h.loop]; exact Bool.false_ne_true)]
  exact ⟨_, rfl, h.next hsmall hlines hpatch _ rfl, rfl, rfl, h.mem, rfl, rfl⟩

private theorem Simulates.patch (htype : i.line.type = .patch) :
    ∃ y, turn host lines x = .ok y ∧ Simulates (pre.length + i.lines.length) (nestedStep host e i) y := by
  have hline := getElem?_line hlines h.current
  have hlt := lines_lt hlines h.current
  have hfits := i.fits
  rw [if_pos htype] at hfits
  have hnext (m : M) := nextLine_current (s := { x.1 with currentLineNr := x.1.currentLineNr + patchLines i.line }) m
    hsmall hlines (by rw [hfits, h.current])
  have hstep : nestedStep host e i = if e.active then operate host i e else e := by
    rw [nestedStep, htype]
    rfl
  rw [hstep]
  by_cases hskips : x.1.ifFlag > 0
  · rw [turn_skips hline hskips, skipLine_patch htype, patchOp_skips hskips, ok_bind,
      if_neg (by rw [h.skips_iff.mp hskips]; exact Bool.false_ne_true)]
    exact ⟨_, rfl, hnext _, h.reg, h.offset, h.mem, h.flag, h.loop⟩
  · have hactive : e.active = true := by
      rw [h.skips_iff, Bool.not_eq_false] at hskips
      exact hskips
    rw [turn_runs hline hskips, runLine_patch htype, patchOp_writes hskips (by omega), ok_bind, if_pos hactive, operate,
      if_pos htype, patchData_eq hlines h.current htype, h.offset, h.mem]
    exact ⟨_, rfl, hnext x.2, h.reg, rfl, rfl, h.flag, h.loop⟩

private theorem Simulates.operates (hoperates : i.line.type.operates) :
    ∃ y, turn host lines x = .ok y ∧ Simulates (pre.length + i.lines.length) (nestedStep host e i) y := by
  have hline := getElem?_line hlines h.current
  have hpatch : i.line.type ≠ .patch := fun hpatch => by
    rw [hpatch] at hoperates
    cases hoperates
  have hskip : skipLine host lines i.line x.1 x.2 = .ok (x.1, x.2) := by
    unfold skipLine
    cases htype : i.line.type
    all_goals
      first
        | rfl
        | (rw [htype] at hoperates; exact absurd hoperates (by decide))
  have hstep : nestedStep host e i = if e.active then operate host i e else e := by
    unfold nestedStep
    cases htype : i.line.type
    all_goals
      first
        | rfl
        | (rw [htype] at hoperates; exact absurd hoperates (by decide))
  rw [hstep]
  by_cases hskips : x.1.ifFlag > 0
  · rw [turn_skips hline hskips, hskip, ok_bind, if_neg (by rw [h.skips_iff.mp hskips]; exact Bool.false_ne_true)]
    exact ⟨_, rfl, h.next hsmall hlines hpatch _ rfl, h.reg, h.offset, h.mem, h.flag, h.loop⟩
  · have hactive : e.active = true := by
      rw [h.skips_iff, Bool.not_eq_false] at hskips
      exact hskips
    obtain ⟨s', m', hrun, hop⟩ := runLine_operate host lines hoperates h.reg h.offset h.loop
    rw [turn_runs hline hskips, h.mem, hrun, ok_bind, if_pos hactive]
    refine ⟨_, rfl, h.next hsmall hlines hpatch _ hop.current, hop.reg, hop.offset, hop.mem, ?_, hop.loop.trans h.loop⟩
    rw [operate_enclosing]
    exact (congrArg UInt32.toNat hop.flag).trans h.flag

theorem Simulates.step (hloop : i.line.type ≠ .loop)
    (hdepth : e.enclosing.length + 1 < 2 ^ 32 ∨ i.line.type.isCondition = false) :
    ∃ y, turn host lines x = .ok y ∧ Simulates (pre.length + i.lines.length) (nestedStep host e i) y := by
  by_cases hcondition : i.line.type.isCondition = true
  · exact h.condition hsmall hlines hcondition (hdepth.resolve_right (by rw [hcondition]; decide))
  · cases htype : i.line.type
    case loop => exact absurd htype hloop
    case terminator => exact h.terminator hsmall hlines htype
    case fullTerminator => exact h.fullTerminator hsmall hlines htype
    case patch => exact h.patch hsmall hlines htype
    all_goals
      first
        | exact h.operates hsmall hlines (by rw [htype]; rfl)
        | (rw [htype] at hcondition; exact absurd rfl hcondition)

end

end

theorem length_enclosing (program : List Instruction) (m : M) :
    (nestedRun host program m).enclosing.length = openConditions program := by
  suffices h : ∀ (e : NestedState M) n, e.enclosing.length = n →
      (program.foldl (nestedStep host) e).enclosing.length = program.foldl (fun n i =>
        if i.line.type.isCondition then n + 1
        else
          match i.line.type with
          | .terminator => n - 1
          | .fullTerminator => 0
          | _ => n) n from h _ 0 rfl
  induction program with
  | nil => exact fun e n h => h
  | cons i program ih =>
    intro e n h
    rw [List.foldl_cons, List.foldl_cons]
    refine ih _ _ ?_
    unfold nestedStep
    by_cases hcondition : i.line.type.isCondition = true
    · rw [if_pos hcondition, if_pos hcondition, List.length_cons, h]
    · rw [if_neg hcondition, if_neg hcondition]
      split
      · rw [List.length_tail, h]
      · rfl
      · split
        · rw [operate_enclosing, h]
        · exact h

section

variable {host} {cheat : CheatLines} {program : List Instruction} {m : M} {x : State × M}

theorem programLines_append (done rest : List Instruction) :
    programLines (done ++ rest) = programLines done ++ programLines rest := List.flatMap_append

theorem Simulates.run_step (hlines : cheat.lines = programLines program) (hloop : ∀ i ∈ program, i.line.type ≠ .loop)
    (hdepth : ∀ done, done <+: program → openConditions done < 2 ^ 32) {done rest : List Instruction} {i : Instruction}
    (hprogram : program = done ++ i :: rest)
    (h : Simulates (programLines done).length (nestedRun host done m) x) :
    ∃ y, turn host cheat.lines x = .ok y ∧
      Simulates (programLines (done ++ [i])).length (nestedRun host (done ++ [i]) m) y := by
  have hsplit : cheat.lines = programLines done ++ (i.lines ++ programLines rest) := by
    rw [hlines, hprogram, programLines_append, programLines_cons]
  have hrun : nestedRun host (done ++ [i]) m = nestedStep host (nestedRun host done m) i := by
    rw [nestedRun, List.foldl_append]
    rfl
  have hnext : openConditions (done ++ [i]) < 2 ^ 32 :=
    hdepth _ ⟨rest, by rw [hprogram, List.append_assoc]; rfl⟩
  have hopen : (nestedRun host done m).enclosing.length + 1 < 2 ^ 32 ∨ i.line.type.isCondition = false := by
    rw [length_enclosing]
    cases hcondition : i.line.type.isCondition with
    | true =>
      rw [openConditions, List.foldl_append, List.foldl_cons, if_pos hcondition] at hnext
      exact .inl hnext
    | false => exact .inr rfl
  obtain ⟨y, hturn, hy⟩ := h.step cheat.small hsplit (hloop i (by rw [hprogram]; simp)) hopen
  refine ⟨y, hturn, ?_⟩
  have hone : programLines [i] = i.lines := List.append_nil i.lines
  rw [programLines_append, List.length_append, hone, hrun]
  exact hy

theorem Reached.simulates (hlines : cheat.lines = programLines program) (hloop : ∀ i ∈ program, i.line.type ≠ .loop)
    (hdepth : ∀ done, done <+: program → openConditions done < 2 ^ 32) (h : Reached host cheat m x) :
    ∃ done rest, program = done ++ rest ∧ Simulates (programLines done).length (nestedRun host done m) x := by
  induction h with
  | refl => exact ⟨[], program, rfl, rfl, rfl, rfl, rfl, rfl, rfl⟩
  | @tail x y _ hturn ih =>
    obtain ⟨done, rest, hprogram, hx⟩ := ih
    cases rest with
    | nil =>
      have hlt := finished_iff.mp hturn.1
      rw [hx.current, hlines, hprogram, List.append_nil] at hlt
      exact absurd hlt (Nat.lt_irrefl _)
    | cons i rest =>
      obtain ⟨z, hz, hsim⟩ := hx.run_step hlines hloop hdepth hprogram
      obtain rfl := Except.ok.inj (hturn.2.symm.trans hz)
      exact ⟨done ++ [i], rest, by rw [hprogram, List.append_assoc]; rfl, hsim⟩

theorem Simulates.run (done rest : List Instruction) (hlines : cheat.lines = programLines program)
    (hloop : ∀ i ∈ program, i.line.type ≠ .loop) (hdepth : ∀ done, done <+: program → openConditions done < 2 ^ 32)
    (hprogram : program = done ++ rest) (h : Simulates (programLines done).length (nestedRun host done m) x) :
    ∃ y, BoundedLoop.run (finished cheat.lines) (turn host cheat.lines) .exhausted rest.length x = .ok y ∧
      Simulates (programLines program).length (nestedRun host program m) y := by
  induction rest generalizing done x with
  | nil =>
    rw [List.append_nil] at hprogram
    subst hprogram
    refine ⟨x, BoundedLoop.run_of_finished (decide_eq_true ?_), h⟩
    rw [h.current, hlines]
  | cons i rest ih =>
    obtain ⟨y, hturn, hy⟩ := h.run_step hlines hloop hdepth hprogram
    have hlt : (programLines done).length < cheat.lines.length := by
      rw [hlines, hprogram, programLines_append, programLines_cons, List.length_append, List.length_append,
        i.length_lines]
      omega
    rw [List.length_cons, BoundedLoop.run_succ (finished_iff.mpr (h.current ▸ hlt)), hturn]
    exact ih (done ++ [i]) (by rw [hprogram, List.append_assoc]; rfl) hy

end

theorem openConditions_le (program : List Instruction) : openConditions program ≤ program.length := by
  unfold openConditions
  suffices h : ∀ n : Nat, program.foldl (fun n i =>
      if i.line.type.isCondition then n + 1
      else
        match i.line.type with
        | .terminator => n - 1
        | .fullTerminator => 0
        | _ => n) n ≤ n + program.length from (h 0).trans_eq (Nat.zero_add _)
  induction program with
  | nil => exact Nat.le_refl
  | cons i program ih =>
    intro n
    rw [List.foldl_cons, List.length_cons, Nat.add_comm program.length, ← Nat.add_assoc]
    refine (ih _).trans (Nat.add_le_add_right ?_ _)
    split
    · exact Nat.le_refl _
    · split
      · exact (Nat.sub_le n 1).trans (Nat.le_succ n)
      · exact Nat.zero_le _
      · exact Nat.le_succ n

/-- Conditions nest.  A run of a cheat without loops is in front of an instruction whenever it is in front of a line;
it executes the instruction if and only if all the conditions that are open have held, and does what the instruction
means.  The writes of a patch put its bytes at consecutive addresses.  Behind the last instruction no condition counts
as open, if none is. -/
theorem conditions_nest (cheat : CheatLines) (program : List Instruction) (m : M)
    (hlines : cheat.lines = programLines program) (hloop : ∀ i ∈ program, i.line.type ≠ .loop)
    (hdepth : ∀ done, done <+: program → openConditions done < 2 ^ 32) :
    (∀ x, Reached host cheat m x → ∃ done rest, program = done ++ rest ∧
      Simulates (programLines done).length (nestedRun host done m) x ∧
      (¬ x.1.ifFlag > 0 ↔ (nestedRun host done m).active = true)) ∧
    (∃ x, execute host cheat program.length m = .ok x ∧
      Simulates (programLines program).length (nestedRun host program m) x ∧
      (openConditions program = 0 → x.1.ifFlag = 0)) ∧
    ∀ addr bytes, (patchWrites addr bytes).flatMap MemoryWrite.bytes = placeBytes addr bytes := by
  refine ⟨?_, ?_, bytes_patchWrites⟩
  · intro x hx
    obtain ⟨done, rest, hprogram, hsim⟩ := hx.simulates hlines hloop hdepth
    refine ⟨done, rest, hprogram, hsim, ?_⟩
    rw [hsim.skips_iff, Bool.not_eq_false]
  · have hstart : Simulates 0 (nestedRun host [] m) ({}, m) := ⟨rfl, rfl, rfl, rfl, rfl, rfl⟩
    obtain ⟨x, hrun, hsim⟩ := Simulates.run [] program hlines hloop hdepth rfl hstart
    refine ⟨x, hrun, hsim, ?_⟩
    intro hopen
    have hflag := hsim.flag
    have hlength := length_enclosing host program m
    rw [hopen, List.length_eq_zero_iff] at hlength
    rw [hlength] at hflag
    exact UInt32.toNat_inj.mp hflag

/-- A condition that does not hold, over a patch of five bytes. -/
theorem conditions_nest_patch :
    ∃ x, execute noMemory ⟨[⟨.equalTo32, 0x50000000, 1⟩, ⟨.patch, 0xE0000000, 5⟩, ⟨.fullTerminator, 0xD2000000, 3⟩,
      ⟨.terminator, 0xD0000000, 0⟩], by decide⟩ 3 () = .ok x ∧ x.1.ifFlag = 0 := by
  obtain ⟨x, hrun, -, hflag⟩ := (conditions_nest noMemory
    ⟨[⟨.equalTo32, 0x50000000, 1⟩, ⟨.patch, 0xE0000000, 5⟩, ⟨.fullTerminator, 0xD2000000, 3⟩,
      ⟨.terminator, 0xD0000000, 0⟩], by decide⟩
    [⟨⟨.equalTo32, 0x50000000, 1⟩, [], rfl⟩, ⟨⟨.patch, 0xE0000000, 5⟩, [⟨.fullTerminator, 0xD2000000, 3⟩], rfl⟩,
      ⟨⟨.terminator, 0xD0000000, 0⟩, [], rfl⟩]
    () rfl (by simp) fun done hdone =>
      (openConditions_le done).trans_lt (hdone.length_le.trans_lt (by decide))).2.1
  exact ⟨x, hrun, hflag rfl⟩

/-- A full terminator ends a condition that has not held: the line behind it is executed, though the terminator of the
condition is to come. -/
theorem fullTerminator_ends_condition :
    CheatLine.holds noMemory ⟨.equalTo32, 0x50000000, 1⟩ 0 () = false ∧
      execute noMemory ⟨[⟨.equalTo32, 0x50000000, 1⟩, ⟨.fullTerminator, 0xD2000000, 0⟩, ⟨.addValue, 0xD4000000, 1⟩,
        ⟨.terminator, 0xD0000000, 0⟩], by decide⟩ 4 () = .ok ({ reg := 1, currentLineNr := 4 }, ()) :=
  ⟨rfl, rfl⟩

end SweepDSEmu.Cheats
