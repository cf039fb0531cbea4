import SweepDSEmu.Cheats.CheatProgram

/-!
# Loops of cheats

A loop line compares the counter before it counts, and the line at the end of the block looks at the comparison.  So the
block is passed once more than the loop line says, if the counter is 0 at first.
-/

namespace SweepDSEmu.Cheats

structure LoopAt (lines : List CheatLine) where
  pre : List CheatLine
  loopLine : CheatLine
  block : List Instruction
  endLine : CheatLine
  post : List CheatLine
  lines_eq : lines = pre ++ (loopLine :: (programLines block ++ endLine :: post))
  small : lines.length < 2 ^ 63
  loop : loopLine.type = .loop
  ends : endLine.type = .loopExecuteVariant
  plain : ∀ i ∈ block, i.IsPlain

namespace LoopAt

variable {M : Type} {host : CheatMemory M} {lines : List CheatLine} {x y z : State × M}

def times (l : LoopAt lines) : UInt32 := l.loopLine.value

def start (l : LoopAt lines) : Nat := l.pre.length

def stop (l : LoopAt lines) : Nat := l.pre.length + 1 + (programLines l.block).length

def body (l : LoopAt lines) : List Nat := l.start :: positions (l.start + 1) l.block

def pass (l : LoopAt lines) : List Nat := l.body ++ [l.stop]

variable (l : LoopAt lines)

private theorem getElem?_middle {α : Type} (pre post : List α) (a : α) {n : Nat} (hn : pre.length = n) :
    (pre ++ a :: post)[n]? = some a := by
  rw [List.getElem?_append_right hn.le, hn, Nat.sub_self]
  rfl

theorem start_line : lines[l.start]? = some l.loopLine :=
  (congrArg (fun lines : List CheatLine => lines[l.start]?) l.lines_eq).trans (getElem?_middle _ _ _ rfl)

theorem stop_line : lines[l.stop]? = some l.endLine := by
  have hsplit : lines = (l.pre ++ l.loopLine :: programLines l.block) ++ l.endLine :: l.post :=
    l.lines_eq.trans (by rw [List.append_assoc, List.cons_append])
  refine (congrArg (fun lines : List CheatLine => lines[l.stop]?) hsplit).trans (getElem?_middle _ _ _ ?_)
  rw [List.length_append, List.length_cons, stop]
  omega

theorem body_runs (host : CheatMemory M) (hx : x.1.currentLineNr = l.start) (hflag : ¬ x.1.ifFlag > 0) :
    ∃ y, Runs host lines x l.body y ∧ y.1.currentLineNr = l.stop ∧
      y.1.loopFlag = decide (x.1.loopCount < l.times) ∧ y.1.loopBackLine = l.start ∧
      y.1.loopCount = x.1.loopCount + 1 := by
  have hline : lines[x.1.currentLineNr]? = some l.loopLine := hx ▸ l.start_line
  have hlt := (List.getElem?_eq_some_iff.mp l.start_line).1
  have hturn : turn host lines x = .ok (nextLine (loopOp l.loopLine x.1, x.2)) := by
    rw [turn_runs hline hflag, runLine, l.loop]
    rfl
  have hnext : (nextLine (loopOp l.loopLine x.1, x.2)).1.currentLineNr = (l.pre ++ [l.loopLine]).length := by
    have hsmall := l.small
    show (x.1.currentLineNr + 1) % 2 ^ 64 = _
    rw [hx, List.length_append, List.length_singleton, ← start]
    omega
  obtain ⟨y, hruns, hy, hflag', hback, hcount⟩ := plain_runs host (l.pre ++ [l.loopLine]) _ l.small l.block
    (l.lines_eq.trans (by rw [List.append_assoc]; rfl)) hnext l.plain
  rw [List.length_append, List.length_singleton, ← start] at hruns hy
  refine ⟨y, ?_, hy, hflag', hback.trans hx, hcount⟩
  have hrun := Runs.turn ⟨finished_iff.mpr (hx ▸ hlt), hturn⟩ hruns
  rwa [hx] at hrun

def PassesExactly (host : CheatMemory M) (x : State × M) (n : Nat) : Prop :=
  ∃ y, Runs host lines x (List.replicate n l.pass).flatten y ∧ y.1.currentLineNr = l.stop + 1 ∧ y.1.loopCount = 0

/-- No condition of the block is open at its end, after `k` passes and another one. -/
def ClosedAfter (host : CheatMemory M) (x : State × M) (k : Nat) : Prop :=
  ∀ y, Runs host lines x ((List.replicate k l.pass).flatten ++ l.body) y → ¬ y.1.ifFlag > 0

theorem stop_turn (host : CheatMemory M) (hy : y.1.currentLineNr = l.stop) (hback : y.1.loopBackLine = l.start) :
    ∃ z, turn host lines y = .ok z ∧
      (y.1.ifFlag > 0 → z.1.currentLineNr = l.stop + 1 ∧ z.1.loopCount = y.1.loopCount) ∧
      (¬ y.1.ifFlag > 0 → y.1.loopFlag = true →
        z.1.currentLineNr = l.start ∧ z.1.ifFlag = y.1.ifFlag ∧ z.1.loopCount = y.1.loopCount) ∧
      (¬ y.1.ifFlag > 0 → ¬ y.1.loopFlag = true → z.1.currentLineNr = l.stop + 1 ∧ z.1.loopCount = 0) := by
  have hline : lines[y.1.currentLineNr]? = some l.endLine := hy ▸ l.stop_line
  have hlt := (List.getElem?_eq_some_iff.mp l.stop_line).1
  have hltStart := (List.getElem?_eq_some_iff.mp l.start_line).1
  have hsmall := l.small
  have hnext : (y.1.currentLineNr + 1) % 2 ^ 64 = l.stop + 1 := by omega
  by_cases hflag : y.1.ifFlag > 0
  · have hskip : skipLine host lines l.endLine y.1 y.2 = .ok (y.1, y.2) := by
      rw [skipLine, l.ends]
      rfl
    rw [turn_skips hline hflag, hskip, ok_bind]
    exact ⟨_, rfl, fun _ => ⟨hnext, rfl⟩, fun h => absurd hflag h, fun h => absurd hflag h⟩
  · have hrun : runLine host lines l.endLine y.1 y.2 = .ok (loopExecuteVariantOp y.1, y.2) := by
      rw [runLine, l.ends]
    rw [turn_runs hline hflag, hrun, ok_bind]
    refine ⟨_, rfl, fun h => absurd h hflag, fun _ hloop => ?_, fun _ hloop => ?_⟩
    · rw [loopExecuteVariantOp, if_pos hloop, nextLine_lineBefore y (by omega)]
      exact ⟨hback, rfl, rfl⟩
    · rw [loopExecuteVariantOp, if_neg hloop]
      exact ⟨hnext, rfl⟩

theorem stop_ne_start : l.stop + 1 ≠ l.start := by
  unfold stop start
  omega

structure PassEnd (host : CheatMemory M) (x y z : State × M) : Prop where
  body : Runs host lines x l.body y
  pass : Runs host lines x l.pass z
  opened : y.1.ifFlag > 0 → z.1.currentLineNr = l.stop + 1 ∧ z.1.loopCount = x.1.loopCount + 1
  again : ¬ y.1.ifFlag > 0 → x.1.loopCount < l.times →
    z.1.currentLineNr = l.start ∧ ¬ z.1.ifFlag > 0 ∧ z.1.loopCount = x.1.loopCount + 1
  done : ¬ y.1.ifFlag > 0 → ¬ x.1.loopCount < l.times → z.1.currentLineNr = l.stop + 1 ∧ z.1.loopCount = 0

theorem exists_passEnd (host : CheatMemory M) (hx : x.1.currentLineNr = l.start) (hflag : ¬ x.1.ifFlag > 0) :
    ∃ y z, l.PassEnd host x y z := by
  obtain ⟨y, hruns, hy, hloop, hback, hcount⟩ := l.body_runs host hx hflag
  obtain ⟨z, hturn, hopen, hagain, hdone⟩ := l.stop_turn host hy hback
  have hlt := (List.getElem?_eq_some_iff.mp l.stop_line).1
  refine ⟨y, z, hruns, ?_, fun h => ?_, fun h hmore => ?_, fun h hmore => ?_⟩
  · have hlast := Runs.turn ⟨finished_iff.mpr (hy ▸ hlt), hturn⟩ (.refl z)
    rw [hy] at hlast
    exact hruns.append hlast
  · exact ⟨(hopen h).1, (hopen h).2.trans hcount⟩
  · obtain ⟨hcurrent, hif, hcount'⟩ := hagain h (hloop.trans (decide_eq_true hmore))
    exact ⟨hcurrent, hif ▸ h, hcount'.trans hcount⟩
  · exact hdone h (by rw [hloop, decide_eq_false hmore]; exact Bool.false_ne_true)

theorem passesExactly_succ (h : l.PassEnd host x y z) (n : Nat) :
    l.PassesExactly host x (n + 1) ↔ l.PassesExactly host z n := by
  constructor
  · rintro ⟨w, hw, hend⟩
    obtain ⟨z', hz', hw⟩ := hw.of_append
    obtain rfl := h.pass.det hz'
    exact ⟨w, hw, hend⟩
  · rintro ⟨w, hw, hend⟩
    exact ⟨w, h.pass.append hw, hend⟩

theorem closedAfter_succ (h : l.PassEnd host x y z) (k : Nat) :
    l.ClosedAfter host x (k + 1) ↔ l.ClosedAfter host z k := by
  unfold ClosedAfter
  rw [List.replicate_succ, List.flatten_cons, List.append_assoc]
  constructor
  · intro hclosed w hw
    exact hclosed w (h.pass.append hw)
  · intro hclosed w hw
    obtain ⟨z', hz', hw⟩ := hw.of_append
    obtain rfl := h.pass.det hz'
    exact hclosed w hw

theorem closedAfter_zero (h : l.PassEnd host x y z) : l.ClosedAfter host x 0 ↔ ¬ y.1.ifFlag > 0 := by
  constructor
  · intro hclosed
    exact hclosed y h.body
  · intro hflag w hw
    rwa [← h.body.det hw]

theorem passesExactly_zero : l.PassesExactly host x 0 ↔ x.1.currentLineNr = l.stop + 1 ∧ x.1.loopCount = 0 := by
  constructor
  · rintro ⟨y, hy, hend⟩
    cases hy
    exact hend
  · intro hend
    exact ⟨x, .refl x, hend⟩

theorem not_passesExactly (hx : x.1.currentLineNr ≠ l.start) (n : Nat) : ¬ l.PassesExactly host x (n + 1) := by
  rintro ⟨y, hy, -⟩
  rw [List.replicate_succ, List.flatten_cons, pass, body, List.append_assoc, List.cons_append] at hy
  generalize hstart : l.start = start at hy
  cases hy
  exact hx hstart.symm

private theorem add_one_eq_zero_iff (count : UInt32) : count + 1 = 0 ↔ count.toNat + 0 + 1 = 2 ^ 32 := by
  have hlt := count.toNat_lt
  rw [← UInt32.toNat_inj, UInt32.toNat_add]
  show (count.toNat + 1) % 2 ^ 32 = 0 ↔ _
  omega

private theorem toNat_add_one {count times : UInt32} (h : count < times) : (count + 1).toNat = count.toNat + 1 := by
  have hcount := UInt32.lt_iff_toNat_lt.mp h
  have hlt := times.toNat_lt
  show (count.toNat + 1) % 2 ^ 32 = _
  omega

theorem passesExactly_iff (n : Nat) (hx : x.1.currentLineNr = l.start) (hflag : ¬ x.1.ifFlag > 0) :
    l.PassesExactly host x (n + 1) ↔
      (∀ k < n, l.ClosedAfter host x k ∧ x.1.loopCount.toNat + k < l.times.toNat) ∧
        (l.ClosedAfter host x n ∧ l.times.toNat ≤ x.1.loopCount.toNat + n ∨
          ¬ l.ClosedAfter host x n ∧ x.1.loopCount.toNat + n + 1 = 2 ^ 32) := by
  induction n generalizing x with
  | zero =>
    obtain ⟨y, z, h⟩ := l.exists_passEnd host hx hflag
    rw [l.passesExactly_succ h, passesExactly_zero, l.closedAfter_zero h]
    by_cases hopen : y.1.ifFlag > 0
    · obtain ⟨hcurrent, hcount⟩ := h.opened hopen
      rw [hcount, add_one_eq_zero_iff]
      simp [hopen, hcurrent]
    · by_cases hmore : x.1.loopCount < l.times
      · have hcurrent := (h.again hopen hmore).1
        have hne := l.stop_ne_start
        rw [UInt32.lt_iff_toNat_lt] at hmore
        simp [hopen, hcurrent, hne.symm]
        omega
      · have hend := h.done hopen hmore
        rw [UInt32.lt_iff_toNat_lt] at hmore
        simp [hopen, hend]
        omega
  | succ n ih =>
    obtain ⟨y, z, h⟩ := l.exists_passEnd host hx hflag
    rw [l.passesExactly_succ h]
    by_cases hgoes : ¬ y.1.ifFlag > 0 ∧ x.1.loopCount < l.times
    · obtain ⟨hcurrent, hflag', hcount⟩ := h.again hgoes.1 hgoes.2
      have hcount' := toNat_add_one hgoes.2
      rw [ih hcurrent hflag', hcount, hcount', l.closedAfter_succ h, Nat.forall_lt_succ_left, l.closedAfter_zero h]
      have hmore := UInt32.lt_iff_toNat_lt.mp hgoes.2
      have hshift (k : Nat) : x.1.loopCount.toNat + 1 + k = x.1.loopCount.toNat + (k + 1) := by omega
      simp only [l.closedAfter_succ h, hshift]
      exact ⟨fun hrest => ⟨⟨⟨hgoes.1, hmore⟩, hrest.1⟩, hrest.2⟩, fun hrest => ⟨hrest.1.2, hrest.2⟩⟩
    · have hleft : z.1.currentLineNr ≠ l.start := by
        have hne := l.stop_ne_start
        by_cases hopen : y.1.ifFlag > 0
        · rw [(h.opened hopen).1]
          exact hne
        · rw [(h.done hopen fun hmore => hgoes ⟨hopen, hmore⟩).1]
          exact hne
      refine ⟨fun hpasses => absurd hpasses (l.not_passesExactly hleft n), fun hrest => ?_⟩
      obtain ⟨hclosed, hmore⟩ := hrest.1 0 (Nat.succ_pos n)
      exact absurd ⟨(l.closedAfter_zero h).mp hclosed, UInt32.lt_iff_toNat_lt.mpr hmore⟩ hgoes

end LoopAt

open LoopAt

/-- A loop passes its block as often as its line says, and resets the counter, if and only if the counter has been 1
when the loop line is met (at least 1, for one pass), and no pass leaves a condition of the block open.  The last pass
may, when the counter wraps around to 0. -/
theorem loop_passesExactly_iff (host : CheatMemory M) (l : LoopAt lines) (x : State × M)
    (hx : x.1.currentLineNr = l.start) (hflag : ¬ x.1.ifFlag > 0) :
    l.PassesExactly host x l.times.toNat ↔
      0 < l.times.toNat ∧ 0 < x.1.loopCount.toNat ∧ (l.times.toNat = 1 ∨ x.1.loopCount.toNat = 1) ∧
        (∀ k < l.times.toNat - 1, l.ClosedAfter host x k) ∧
        (l.ClosedAfter host x (l.times.toNat - 1) ∨ x.1.loopCount.toNat + l.times.toNat = 2 ^ 32) := by
  have htimes32 := l.times.toNat_lt
  rcases Nat.eq_zero_or_pos l.times.toNat with hzero | hpos
  · rw [hzero, passesExactly_zero]
    have hne : x.1.currentLineNr ≠ l.stop + 1 := hx ▸ l.stop_ne_start.symm
    simp [hne]
  · obtain ⟨n, hn⟩ : ∃ n, l.times.toNat = n + 1 := ⟨l.times.toNat - 1, by omega⟩
    rw [hn, l.passesExactly_iff n hx hflag, hn, Nat.add_sub_cancel]
    constructor
    · rintro ⟨hall, hlast⟩
      have hcount : 0 < x.1.loopCount.toNat := by
        rcases hlast with ⟨-, hlast⟩ | ⟨-, hwraps⟩ <;> omega
      refine ⟨by omega, hcount, ?_, fun k hk => (hall k hk).1, ?_⟩
      · rcases Nat.eq_zero_or_pos n with rfl | hn
        · exact .inl rfl
        · have hless := (hall (n - 1) (by omega)).2
          exact .inr (by omega)
      · rcases hlast with ⟨hclosed, -⟩ | ⟨-, hwraps⟩
        · exact .inl hclosed
        · exact .inr (by omega)
    · rintro ⟨-, hcount, hone, hall, hlast⟩
      refine ⟨fun k hk => ⟨hall k hk, by omega⟩, ?_⟩
      by_cases hclosed : l.ClosedAfter host x n
      · exact .inl ⟨hclosed, by omega⟩
      · exact .inr ⟨hclosed, by have hwraps := hlast.resolve_left hclosed; omega⟩

def countingLoop : LoopAt [⟨.loop, 0xC0000000, 1⟩, ⟨.addValue, 0xD4000000, 1⟩,
    ⟨.loopExecuteVariant, 0xD1000000, 0⟩] where
  pre := []
  loopLine := ⟨.loop, 0xC0000000, 1⟩
  block := [⟨⟨.addValue, 0xD4000000, 1⟩, [], rfl⟩]
  endLine := ⟨.loopExecuteVariant, 0xD1000000, 0⟩
  post := []
  lines_eq := rfl
  small := by decide
  loop := rfl
  ends := rfl
  plain := fun i hi => .inr (by rw [List.mem_singleton.mp hi]; rfl)

private theorem countingLoop_body (count : UInt32) :
    Runs noMemory [⟨.loop, 0xC0000000, 1⟩, ⟨.addValue, 0xD4000000, 1⟩, ⟨.loopExecuteVariant, 0xD1000000, 0⟩]
      ({ loopCount := count }, ()) countingLoop.body
      ({ loopCount := count + 1, loopFlag := count < 1, currentLineNr := 2, reg := 1 }, ()) :=
  .turn ⟨rfl, rfl⟩ (.turn ⟨rfl, rfl⟩ (.refl _))

/-- The counter is 1 when the loop is met. -/
theorem loop_passesExactly_one : countingLoop.PassesExactly noMemory ({ loopCount := 1 }, ()) 1 := by
  refine (loop_passesExactly_iff noMemory countingLoop ({ loopCount := 1 }, ()) rfl (by decide)).mpr
    ⟨by decide, by decide, .inl (by decide), fun k hk => absurd hk (Nat.not_lt_zero k), .inl ?_⟩
  intro y hy
  rw [← (countingLoop_body 1).det hy]
  decide

/-- In the initial state, the loop that says one turn makes two. -/
theorem loop_passes_again : ¬ countingLoop.PassesExactly noMemory ({}, ()) 1 ∧
    countingLoop.PassesExactly noMemory ({}, ()) 2 := by
  have hpass : Runs noMemory _ ({}, ()) countingLoop.pass ({ loopCount := 1, loopFlag := true, reg := 1 }, ()) :=
    (countingLoop_body 0).append (.turn ⟨rfl, rfl⟩ (.refl _))
  constructor
  · rintro ⟨y, hy, hend, -⟩
    rw [← hpass.det hy] at hend
    exact absurd hend (by decide)
  · exact ⟨_, hpass.append (.turn ⟨rfl, rfl⟩ (.turn ⟨rfl, rfl⟩ (.turn ⟨rfl, rfl⟩ (.refl _)))), rfl, rfl⟩

end SweepDSEmu.Cheats
