import SweepDSEmu.Cheats.PatchData

/-!
# Runs of cheats

What a turn of `Execute` does to the line that is next and to the variables of loops.  A turn executes a loop line, or
jumps back, or goes forward without a change to the loop.  A fault is a patch without its data.

A full terminator jumps back also while a condition does not hold, and then the loop line is skipped.  So a run may be
endless; it ends if there are no such jumps from some turn on.
-/

namespace SweepDSEmu.Cheats

variable {M : Type} {host : CheatMemory M} {lines : List CheatLine} {line : CheatLine} {x y : State × M}

theorem turn_eq (hline : lines[x.1.currentLineNr]? = some line) : turn host lines x =
    (if x.1.ifFlag > 0 then skipLine host lines line x.1 x.2 else runLine host lines line x.1 x.2) >>=
      fun x => .ok (nextLine x) := by
  unfold turn
  rw [hline]
  dsimp only
  by_cases hflag : x.1.ifFlag > 0
  · rw [if_pos hflag, if_pos hflag]
  · rw [if_neg hflag, if_neg hflag]

theorem turn_skips (hline : lines[x.1.currentLineNr]? = some line) (hflag : x.1.ifFlag > 0) :
    turn host lines x = skipLine host lines line x.1 x.2 >>= fun x => .ok (nextLine x) := by
  rw [turn_eq hline, if_pos hflag]

theorem turn_runs (hline : lines[x.1.currentLineNr]? = some line) (hflag : ¬ x.1.ifFlag > 0) :
    turn host lines x = runLine host lines line x.1 x.2 >>= fun x => .ok (nextLine x) := by
  rw [turn_eq hline, if_neg hflag]

structure SameLoop (s s' : State) : Prop where
  current : s'.currentLineNr = s.currentLineNr
  flag : s'.loopFlag = s.loopFlag
  back : s'.loopBackLine = s.loopBackLine
  count : s'.loopCount = s.loopCount

theorem SameLoop.refl (s : State) : SameLoop s s := ⟨rfl, rfl, rfl, rfl⟩

theorem compOp_sameLoop {T : Type} (read : M → UInt32 → T) (comp : T → Bool) (line : CheatLine) (s : State) (m : M) :
    SameLoop s (compOp read comp line s m) := by
  unfold compOp
  dsimp only
  split
  · exact ⟨rfl, rfl, rfl, rfl⟩
  · exact .refl s

theorem jokerOp_sameLoop (host : CheatMemory M) (line : CheatLine) (s : State) (m : M) :
    SameLoop s (jokerOp host line s m) := by
  unfold jokerOp
  dsimp only
  split
  · exact ⟨rfl, rfl, rfl, rfl⟩
  · exact .refl s

theorem terminateOp_sameLoop (s : State) : SameLoop s (terminateOp s) := by
  unfold terminateOp
  split
  · exact ⟨rfl, rfl, rfl, rfl⟩
  · exact .refl s

def CheatType.moves : CheatType → Bool
  | .loop | .loopExecuteVariant | .fullTerminator | .patch => true
  | _ => false

variable (host lines) in
theorem runLine_sameLoop (htype : line.type.moves = false) (s : State) (m : M) :
    ∃ s' m', runLine host lines line s m = .ok (s', m') ∧ SameLoop s s' := by
  unfold runLine
  cases h : line.type
  all_goals
    first
      | exact ⟨_, _, rfl, .refl s⟩
      | exact ⟨_, _, rfl, compOp_sameLoop _ _ line s m⟩
      | exact ⟨_, _, rfl, jokerOp_sameLoop host line s m⟩
      | exact ⟨_, _, rfl, terminateOp_sameLoop s⟩
      | exact ⟨_, _, rfl, rfl, rfl, rfl, rfl⟩
      | exact absurd htype (by rw [h]; decide)

variable (host lines) in
theorem skipLine_sameLoop (htype : line.type ≠ .patch) (htype' : line.type ≠ .fullTerminator) (s : State) (m : M) :
    ∃ s' m', skipLine host lines line s m = .ok (s', m') ∧ SameLoop s s' := by
  unfold skipLine
  by_cases hcondition : line.type.isCondition
  · exact ⟨_, _, if_pos hcondition, rfl, rfl, rfl, rfl⟩
  · rw [if_neg hcondition]
    cases h : line.type
    all_goals
      first
        | exact absurd h htype
        | exact absurd h htype'
        | exact ⟨_, _, rfl, terminateOp_sameLoop s⟩
        | exact ⟨_, _, rfl, .refl s⟩

theorem skipLine_patch (hpatch : line.type = .patch) (s : State) (m : M) :
    skipLine host lines line s m = patchOp host lines line s m := by
  unfold skipLine
  rw [hpatch]
  rfl

theorem skipLine_fullTerminator (htype : line.type = .fullTerminator) (s : State) (m : M) :
    skipLine host lines line s m = .ok (fullTerminateOp s, m) := by
  unfold skipLine
  rw [htype]
  rfl

structure Forward (s s' : State) : Prop where
  current : s.currentLineNr < s'.currentLineNr
  flag : s'.loopFlag = s.loopFlag
  back : s'.loopBackLine = s.loopBackLine
  count : s.loopFlag → s'.loopCount = s.loopCount

theorem SameLoop.forward {s s' : State} (h : SameLoop s s') (m : M) (hsmall : s.currentLineNr < 2 ^ 63) :
    Forward s (nextLine (s', m)).1 := by
  unfold nextLine
  refine ⟨?_, h.flag, h.back, fun _ => h.count⟩
  dsimp only
  rw [h.current]
  omega

def jumpBack (x : State × M) : State × M := ({ x.1 with currentLineNr := x.1.loopBackLine }, x.2)

theorem lineBefore_add_one {n : Nat} (h : n < 2 ^ 63) : (lineBefore n + 1) % 2 ^ 64 = n := by
  unfold lineBefore
  omega

theorem nextLine_lineBefore (x : State × M) (hback : x.1.loopBackLine < 2 ^ 63) :
    nextLine ({ x.1 with currentLineNr := lineBefore x.1.loopBackLine }, x.2) = jumpBack x :=
  congrArg (fun current => ({ x.1 with currentLineNr := current }, x.2)) (lineBefore_add_one hback)

def JumpsBack (line : CheatLine) (s : State) : Prop :=
  s.loopFlag ∧ (line.type = .loopExecuteVariant ∧ ¬ s.ifFlag > 0 ∨ line.type = .fullTerminator)

private theorem forward_add {s : State} (m : M) (hcurrent : s.currentLineNr < 2 ^ 63) (line : CheatLine) :
    Forward s (nextLine ({ s with currentLineNr := s.currentLineNr + patchLines line }, m)).1 := by
  have hvalue := line.value.toNat_lt
  have hlines : patchLines line ≤ 2 ^ 29 := by
    unfold patchLines
    omega
  refine ⟨?_, rfl, rfl, fun _ => rfl⟩
  unfold nextLine
  dsimp only
  omega

private theorem fullTerminateOp_cases (s : State) (m : M) (hcurrent : s.currentLineNr < 2 ^ 63)
    (hback : s.loopBackLine < 2 ^ 63) :
    (s.loopFlag ∧ nextLine (fullTerminateOp s, m) = jumpBack (s, m)) ∨
      Forward s (nextLine (fullTerminateOp s, m)).1 := by
  unfold fullTerminateOp
  by_cases hloop : s.loopFlag = true
  · rw [if_pos hloop]
    exact .inl ⟨hloop, nextLine_lineBefore (s, m) hback⟩
  · rw [if_neg hloop]
    refine .inr ⟨?_, (Bool.eq_false_iff.mpr hloop).symm, rfl, fun h => absurd h hloop⟩
    show s.currentLineNr < (s.currentLineNr + 1) % 2 ^ 64
    omega

private theorem loopExecuteVariantOp_cases (s : State) (m : M) (hcurrent : s.currentLineNr < 2 ^ 63)
    (hback : s.loopBackLine < 2 ^ 63) :
    (s.loopFlag ∧ nextLine (loopExecuteVariantOp s, m) = jumpBack (s, m)) ∨
      Forward s (nextLine (loopExecuteVariantOp s, m)).1 := by
  unfold loopExecuteVariantOp
  by_cases hloop : s.loopFlag = true
  · rw [if_pos hloop]
    exact .inl ⟨hloop, nextLine_lineBefore (s, m) hback⟩
  · rw [if_neg hloop]
    refine .inr ⟨?_, rfl, rfl, fun h => absurd h hloop⟩
    show s.currentLineNr < (s.currentLineNr + 1) % 2 ^ 64
    omega

theorem turn_cases (hsmall : lines.length < 2 ^ 63) (hback : x.1.loopBackLine < 2 ^ 63)
    (hline : lines[x.1.currentLineNr]? = some line) (h : turn host lines x = .ok y) :
    (line.type = .loop ∧ ¬ x.1.ifFlag > 0 ∧ y = nextLine (loopOp line x.1, x.2)) ∨
      (JumpsBack line x.1 ∧ y = jumpBack x) ∨
      (Forward x.1 y.1 ∧ ¬ (line.type = .loop ∧ ¬ x.1.ifFlag > 0)) := by
  obtain ⟨hlt, -⟩ := List.getElem?_eq_some_iff.mp hline
  have hcurrent := hlt.trans hsmall
  by_cases hflag : x.1.ifFlag > 0
  · rw [turn_skips hline hflag] at h
    by_cases hpatch : line.type = .patch
    · rw [skipLine_patch hpatch, patchOp_skips hflag, ok_bind] at h
      cases h
      exact .inr (.inr ⟨forward_add x.2 hcurrent line, fun hloop => hloop.2 hflag⟩)
    · by_cases hterminator : line.type = .fullTerminator
      · rw [skipLine_fullTerminator hterminator, ok_bind] at h
        cases h
        rcases fullTerminateOp_cases x.1 x.2 hcurrent hback with ⟨hloop, hjump⟩ | hforward
        · exact .inr (.inl ⟨⟨hloop, .inr hterminator⟩, hjump⟩)
        · exact .inr (.inr ⟨hforward, fun hloop => hloop.2 hflag⟩)
      · obtain ⟨s', m', hskip, hsame⟩ := skipLine_sameLoop host lines hpatch hterminator x.1 x.2
        rw [hskip, ok_bind] at h
        cases h
        exact .inr (.inr ⟨hsame.forward m' hcurrent, fun hloop => hloop.2 hflag⟩)
  · rw [turn_runs hline hflag] at h
    cases hmoves : line.type.moves with
    | false =>
      obtain ⟨s', m', hrun, hsame⟩ := runLine_sameLoop host lines hmoves x.1 x.2
      rw [hrun, ok_bind] at h
      cases h
      exact .inr (.inr ⟨hsame.forward m' hcurrent, fun hloop => by rw [hloop.1] at hmoves; cases hmoves⟩)
    | true =>
      unfold runLine at h
      cases htype : line.type
      case loop =>
        rw [htype] at h
        cases h
        exact .inl ⟨rfl, hflag, rfl⟩
      case loopExecuteVariant =>
        rw [htype] at h
        cases h
        rcases loopExecuteVariantOp_cases x.1 x.2 hcurrent hback with ⟨hloop, hjump⟩ | hforward
        · exact .inr (.inl ⟨⟨hloop, .inl ⟨htype, hflag⟩⟩, hjump⟩)
        · exact .inr (.inr ⟨hforward, fun hloop => nomatch hloop.1⟩)
      case fullTerminator =>
        rw [htype] at h
        cases h
        rcases fullTerminateOp_cases x.1 x.2 hcurrent hback with ⟨hloop, hjump⟩ | hforward
        · exact .inr (.inl ⟨⟨hloop, .inr htype⟩, hjump⟩)
        · exact .inr (.inr ⟨hforward, fun hloop => nomatch hloop.1⟩)
      case patch =>
        rw [htype] at h
        rcases Nat.lt_or_ge (x.1.currentLineNr + patchLines line) lines.length with hdata | hdata
        · rw [patchOp_writes hflag hdata, ok_bind] at h
          cases h
          exact .inr (.inr ⟨forward_add _ hcurrent line, fun hloop => nomatch hloop.1⟩)
        · rw [patchOp_fault hflag hlt hdata] at h
          cases h
      all_goals exact absurd hmoves (by rw [htype]; decide)

def JumpsWhileSkipping (lines : List CheatLine) (s : State) : Prop :=
  s.ifFlag > 0 ∧ s.loopFlag ∧ ∃ line, lines[s.currentLineNr]? = some line ∧ line.type = .fullTerminator

structure LoopInv (lines : List CheatLine) (s : State) : Prop where
  back : s.loopBackLine < 2 ^ 63
  loop : s.loopFlag → s.loopBackLine ≤ s.currentLineNr ∧ ∃ line, lines[s.loopBackLine]? = some line ∧ line.type = .loop

def loopBase (s : State) : Nat := if s.loopFlag then s.loopBackLine else s.currentLineNr

/-- The turns that the loop has left, and whether its line is next. -/
def loopRest (s : State) : Nat :=
  2 * (2 ^ 32 - s.loopCount.toNat) +
    if s.loopFlag ∧ s.currentLineNr = s.loopBackLine ∧ ¬ s.ifFlag > 0 then 0 else 1

def rank (lines : List CheatLine) (s : State) : Nat × Nat × Nat :=
  (lines.length - loopBase s, loopRest s, lines.length - s.currentLineNr)

abbrev Lower : Nat × Nat × Nat → Nat × Nat × Nat → Prop := Prod.Lex (· < ·) (Prod.Lex (· < ·) (· < ·))

theorem lower_wf : WellFounded Lower :=
  (Prod.lex Nat.lt_wfRel (Prod.lex Nat.lt_wfRel Nat.lt_wfRel)).wf

theorem loopBase_le {s : State} (h : LoopInv lines s) : loopBase s ≤ s.currentLineNr := by
  unfold loopBase
  split
  · exact (h.loop ‹_›).1
  · exact Nat.le_refl _

/-- The loop line starts another turn of its loop, or ends it, or begins another loop. -/
theorem loopOp_lower {s : State} (m : M) (h : LoopInv lines s) (hlt : s.currentLineNr < lines.length)
    (hsmall : lines.length < 2 ^ 63) (hline : lines[s.currentLineNr]? = some line) (htype : line.type = .loop) :
    LoopInv lines (nextLine (loopOp line s, m)).1 ∧
      Lower (rank lines (nextLine (loopOp line s, m)).1) (rank lines s) := by
  have hbase := loopBase_le h
  have hnext : (s.currentLineNr + 1) % 2 ^ 64 = s.currentLineNr + 1 := by omega
  set s' := (nextLine (loopOp line s, m)).1 with hs'
  have hcurrent' : s'.currentLineNr = s.currentLineNr + 1 := hnext
  have hback' : s'.loopBackLine = s.currentLineNr := rfl
  have hflag' : s'.loopFlag = decide (s.loopCount < line.value) := rfl
  have hcount' : s'.loopCount = s.loopCount + 1 := rfl
  constructor
  · constructor
    · omega
    · intro _
      rw [hback', hcurrent']
      exact ⟨Nat.le_succ _, line, hline, htype⟩
  · by_cases hmore : s.loopCount < line.value
    · have hloop : s'.loopFlag = true := hflag'.trans (decide_eq_true hmore)
      have hbase' : loopBase s' = s.currentLineNr := by rw [loopBase, if_pos hloop, hback']
      have hrest : loopRest s' < loopRest s := by
        have hadd := UInt32.toNat_add s.loopCount 1
        have hvalue := line.value.toNat_lt
        have hcount : s.loopCount.toNat < line.value.toNat := hmore
        have hone : UInt32.toNat 1 = 1 := rfl
        unfold loopRest
        rw [hcount', hadd, hone, if_neg (show ¬ (s'.loopFlag = true ∧ s'.currentLineNr = s'.loopBackLine ∧ _) by omega)]
        split <;> omega
      unfold rank
      rcases Nat.lt_or_eq_of_le hbase with hlt' | heq
      · exact .left _ _ (by omega)
      · rw [hbase', heq]
        exact .right _ (.left _ _ hrest)
    · have hloop : ¬ s'.loopFlag = true := by rw [hflag', decide_eq_false hmore]; exact Bool.false_ne_true
      have hbase' : loopBase s' = s.currentLineNr + 1 := by rw [loopBase, if_neg hloop, hcurrent']
      unfold rank
      exact .left _ _ (by omega)

theorem jumpBack_inv (h : LoopInv lines x.1) : LoopInv lines (jumpBack x).1 :=
  ⟨h.back, fun hflag => ⟨Nat.le_refl _, (h.loop hflag).2⟩⟩

theorem jumpBack_lower (h : LoopInv lines x.1) (hline : lines[x.1.currentLineNr]? = some line)
    (hjump : JumpsBack line x.1) (hskip : ¬ JumpsWhileSkipping lines x.1) :
    Lower (rank lines (jumpBack x).1) (rank lines x.1) := by
  obtain ⟨hflag, hkind⟩ := hjump
  have hif : ¬ x.1.ifFlag > 0 := by
    rcases hkind with ⟨-, hif⟩ | htype
    · exact hif
    · exact fun hif => hskip ⟨hif, hflag, line, hline, htype⟩
  have hne : x.1.currentLineNr ≠ x.1.loopBackLine := by
    intro heq
    obtain ⟨-, line', hline', htype⟩ := h.loop hflag
    rw [← heq, hline] at hline'
    cases hline'
    rcases hkind with ⟨htype', -⟩ | htype'
    · exact nomatch htype.symm.trans htype'
    · exact nomatch htype.symm.trans htype'
  have hbase : loopBase (jumpBack x).1 = loopBase x.1 := by
    rw [loopBase, if_pos (show (jumpBack x).1.loopFlag = true from hflag), loopBase, if_pos hflag]
    rfl
  have hrest : loopRest (jumpBack x).1 < loopRest x.1 := by
    have hnext : (jumpBack x).1.loopFlag = true ∧ (jumpBack x).1.currentLineNr = (jumpBack x).1.loopBackLine ∧
        ¬ (jumpBack x).1.ifFlag > 0 := ⟨hflag, rfl, hif⟩
    rw [loopRest, if_pos hnext, loopRest, if_neg fun hnext => hne hnext.2.1]
    exact Nat.lt_succ_self _
  unfold rank
  rw [hbase]
  exact .right _ (.left _ _ hrest)

theorem Forward.lower {s s' : State} (h : LoopInv lines s) (hlt : s.currentLineNr < lines.length)
    (hforward : Forward s s') (hline : lines[s.currentLineNr]? = some line)
    (hloop : ¬ (line.type = .loop ∧ ¬ s.ifFlag > 0)) :
    LoopInv lines s' ∧ Lower (rank lines s') (rank lines s) := by
  have hcurrent := hforward.current
  constructor
  · constructor
    · rw [hforward.back]
      exact h.back
    · intro hflag
      rw [hforward.flag] at hflag
      rw [hforward.back]
      exact ⟨(h.loop hflag).1.trans hcurrent.le, (h.loop hflag).2⟩
  · by_cases hflag : s.loopFlag = true
    · have hbase : loopBase s' = loopBase s := by
        unfold loopBase
        rw [hforward.flag, hforward.back, if_pos hflag, if_pos hflag]
      have hnot : ¬ (s.loopFlag ∧ s.currentLineNr = s.loopBackLine ∧ ¬ s.ifFlag > 0) := by
        rintro ⟨-, hback, hif⟩
        obtain ⟨-, line', hline', htype⟩ := h.loop hflag
        rw [← hback, hline] at hline'
        cases hline'
        exact hloop ⟨htype, hif⟩
      have hrest : loopRest s' ≤ loopRest s := by
        unfold loopRest
        rw [if_neg hnot, hforward.count hflag]
        split <;> omega
      unfold rank
      rw [hbase]
      rcases Nat.lt_or_eq_of_le hrest with hlt' | heq
      · exact .right _ (.left _ _ hlt')
      · rw [heq]
        exact .right _ (.right _ (by omega))
    · have hbase : loopBase s = s.currentLineNr := if_neg hflag
      have hbase' : loopBase s' = s'.currentLineNr := if_neg (by rwa [hforward.flag])
      unfold rank
      exact .left _ _ (by omega)

theorem turn_lower (hsmall : lines.length < 2 ^ 63) (h : LoopInv lines x.1) (hskip : ¬ JumpsWhileSkipping lines x.1)
    (hturn : turn host lines x = .ok y) : LoopInv lines y.1 ∧ Lower (rank lines y.1) (rank lines x.1) := by
  cases hline : lines[x.1.currentLineNr]? with
  | none =>
    unfold turn at hturn
    rw [hline] at hturn
    cases hturn
  | some line =>
    obtain ⟨hlt, -⟩ := List.getElem?_eq_some_iff.mp hline
    rcases turn_cases hsmall h.back hline hturn with ⟨htype, -, rfl⟩ | ⟨hjump, rfl⟩ | ⟨hforward, hloop⟩
    · exact loopOp_lower x.2 h hlt hsmall hline htype
    · exact ⟨jumpBack_inv h, jumpBack_lower h hline hjump hskip⟩
    · exact hforward.lower h hlt hline hloop

theorem turn_inv (hsmall : lines.length < 2 ^ 63) (h : LoopInv lines x.1) (hturn : turn host lines x = .ok y) :
    LoopInv lines y.1 := by
  cases hline : lines[x.1.currentLineNr]? with
  | none =>
    unfold turn at hturn
    rw [hline] at hturn
    cases hturn
  | some line =>
    obtain ⟨hlt, -⟩ := List.getElem?_eq_some_iff.mp hline
    rcases turn_cases hsmall h.back hline hturn with ⟨htype, -, rfl⟩ | ⟨hjump, rfl⟩ | ⟨hforward, hloop⟩
    · exact (loopOp_lower x.2 h hlt hsmall hline htype).1
    · exact jumpBack_inv h
    · exact (hforward.lower h hlt hline hloop).1

theorem finished_iff : finished lines x = false ↔ x.1.currentLineNr < lines.length := by
  unfold finished
  rw [decide_eq_false_iff_not, Nat.not_le]

variable (host lines line) in
theorem skipLine_ok (hflag : x.1.ifFlag > 0) : ∃ y, skipLine host lines line x.1 x.2 = .ok y := by
  by_cases hpatch : line.type = .patch
  · exact ⟨_, (skipLine_patch hpatch x.1 x.2).trans (patchOp_skips hflag)⟩
  · by_cases hterminator : line.type = .fullTerminator
    · exact ⟨_, skipLine_fullTerminator hterminator x.1 x.2⟩
    · obtain ⟨s', m', hskip, -⟩ := skipLine_sameLoop host lines hpatch hterminator x.1 x.2
      exact ⟨_, hskip⟩

variable (host lines) in
theorem runLine_ok (hpatch : line.type ≠ .patch) (s : State) (m : M) : ∃ y, runLine host lines line s m = .ok y := by
  unfold runLine
  cases htype : line.type
  case patch => exact absurd htype hpatch
  all_goals exact ⟨_, rfl⟩

theorem runLine_patch (hpatch : line.type = .patch) (s : State) (m : M) :
    runLine host lines line s m = patchOp host lines line s m := by
  unfold runLine
  rw [hpatch]

theorem turn_ok_iff (hline : lines[x.1.currentLineNr]? = some line) : (∃ y, turn host lines x = .ok y) ↔
    (¬ x.1.ifFlag > 0 → line.type = .patch → x.1.currentLineNr + patchLines line < lines.length) := by
  obtain ⟨hlt, -⟩ := List.getElem?_eq_some_iff.mp hline
  by_cases hflag : x.1.ifFlag > 0
  · obtain ⟨y, hy⟩ := skipLine_ok host lines line hflag
    rw [turn_skips hline hflag, hy]
    exact ⟨fun _ hrun => absurd hflag hrun, fun _ => ⟨_, rfl⟩⟩
  · rw [turn_runs hline hflag]
    by_cases hpatch : line.type = .patch
    · rw [runLine_patch hpatch]
      rcases Nat.lt_or_ge (x.1.currentLineNr + patchLines line) lines.length with hdata | hdata
      · rw [patchOp_writes hflag hdata]
        exact ⟨fun _ _ _ => hdata, fun _ => ⟨_, rfl⟩⟩
      · rw [patchOp_fault hflag hlt hdata]
        exact ⟨fun ⟨_, hy⟩ => (nomatch hy), fun h => absurd (h hflag hpatch) (Nat.not_lt.mpr hdata)⟩
    · obtain ⟨y, hy⟩ := runLine_ok host lines hpatch x.1 x.2
      rw [hy]
      exact ⟨fun _ _ htype => absurd htype hpatch, fun _ => ⟨_, rfl⟩⟩

theorem turn_fault {fault : CheatFault} (h : turn host lines x = .error fault) : fault = .outOfRange := by
  cases hline : lines[x.1.currentLineNr]? with
  | none =>
    unfold turn at h
    rw [hline] at h
    exact (Except.error.inj h).symm
  | some line =>
    obtain ⟨hlt, -⟩ := List.getElem?_eq_some_iff.mp hline
    have hnot : ¬ ∃ y, turn host lines x = .ok y := fun ⟨y, hy⟩ => nomatch h.symm.trans hy
    rw [turn_ok_iff hline] at hnot
    simp only [Classical.not_imp] at hnot
    obtain ⟨hflag, hpatch, hdata⟩ := hnot
    rw [turn_runs hline hflag, runLine_patch hpatch, patchOp_fault hflag hlt (Nat.le_of_not_lt hdata)] at h
    exact (Except.error.inj h).symm

abbrev Reached (host : CheatMemory M) (cheat : CheatLines) (m : M) (x : State × M) : Prop :=
  BoundedLoop.Reaches (finished cheat.lines) (turn host cheat.lines) ({}, m) x

theorem Reached.inv {cheat : CheatLines} {m : M} (h : Reached host cheat m x) : LoopInv cheat.lines x.1 := by
  induction h with
  | refl => exact ⟨Nat.two_pow_pos 63, fun hflag => absurd hflag Bool.false_ne_true⟩
  | tail _ hturn ih => exact turn_inv cheat.small ih hturn.2

/-- The run of a cheat ends if and only if from some turn on no full terminator jumps back while a condition does not
hold. -/
theorem execute_ends_iff (host : CheatMemory M) (cheat : CheatLines) (m : M) :
    EndsWith .exhausted (fun bound => execute host cheat bound m) ↔
      ∃ x, Reached host cheat m x ∧
        ∀ y, BoundedLoop.Reaches (finished cheat.lines) (turn host cheat.lines) x y →
          ¬ JumpsWhileSkipping cheat.lines y.1 := by
  constructor
  · rintro ⟨bound, hends, -⟩
    obtain ⟨x, hx, hlast⟩ := BoundedLoop.exists_last hends
    refine ⟨x, hx, ?_⟩
    intro y hy hskip
    obtain rfl : x = y := by
      rcases hy.cases_head with heq | ⟨z, hz, -⟩
      · exact heq
      · exact absurd hz (hlast z)
    obtain ⟨hflag, -, line, hline, -⟩ := hskip
    obtain ⟨z, hz⟩ : ∃ z, turn host cheat.lines x = .ok z := (turn_ok_iff hline).mpr fun hrun => absurd hflag hrun
    exact hlast z ⟨finished_iff.mpr (List.getElem?_eq_some_iff.mp hline).1, hz⟩
  · rintro ⟨x, hx, hskip⟩
    refine EndsWith.loop (BoundedLoop.ends_of_reaches hx ?_)
    refine BoundedLoop.run_ends (fun y => LoopInv cheat.lines y.1 ∧
      BoundedLoop.Reaches (finished cheat.lines) (turn host cheat.lines) x y) lower_wf
      (fun y => rank cheat.lines y.1) ?_ ?_ ⟨hx.inv, .refl⟩
    · rintro y z ⟨hinv, hy⟩ hfinished hturn
      obtain ⟨hinv', hlower⟩ := turn_lower cheat.small hinv (hskip y hy) hturn
      exact ⟨⟨hinv', hy.tail ⟨hfinished, hturn⟩⟩, hlower⟩
    · intro y _ hfault
      exact nomatch turn_fault hfault

/-- A memory of zeros that cannot be written. -/
def noMemory : CheatMemory Unit :=
  ⟨fun _ _ => 0, fun _ _ => 0, fun _ _ => 0, fun _ _ _ => (), fun _ _ _ => (), fun _ _ _ => (), fun _ => 0⟩

/-- A loop with a condition that does not hold and a full terminator.  The second time the loop line is skipped, the
condition is met again by the terminator before it, and so on. -/
theorem execute_endless :
    ¬ EndsWith .exhausted fun bound =>
      execute noMemory ⟨[⟨.loop, 0xC0000000, 2⟩, ⟨.terminator, 0xD0000000, 0⟩, ⟨.equalTo32, 0x50000000, 1⟩,
        ⟨.fullTerminator, 0xD2000000, 0⟩], by decide⟩ bound () := by
  rintro ⟨bound, hends, -⟩
  refine hends (BoundedLoop.run_endless (· ∈ [
    ({}, ()), ({ loopCount := 1, loopFlag := true, currentLineNr := 1 }, ()),
    ({ loopCount := 1, loopFlag := true, currentLineNr := 2 }, ()),
    ({ loopCount := 1, loopFlag := true, currentLineNr := 3, ifFlag := 1 }, ()),
    ({ loopCount := 1, loopFlag := true, currentLineNr := 0, ifFlag := 1 }, ()),
    ({ loopCount := 1, loopFlag := true, currentLineNr := 1, ifFlag := 1 }, ())]) ?_ (by decide) bound)
  intro x hx
  simp only [List.mem_cons, List.not_mem_nil, or_false] at hx
  rcases hx with rfl | rfl | rfl | rfl | rfl | rfl
  all_goals exact ⟨rfl, _, rfl, by decide⟩

/-- A run reads existing lines only, if and only if every patch that it executes has its data. -/
theorem execute_reads_iff (host : CheatMemory M) (cheat : CheatLines) (m : M) :
    (∀ bound, execute host cheat bound m ≠ .error .outOfRange) ↔
      ∀ x, Reached host cheat m x → ∀ line, cheat.lines[x.1.currentLineNr]? = some line → ¬ x.1.ifFlag > 0 →
        line.type = .patch → x.1.currentLineNr + patchLines line < cheat.lines.length := by
  constructor
  · intro hreads x hx line hline
    suffices hok : ∃ y, turn host cheat.lines x = .ok y from (turn_ok_iff hline).mp hok
    cases hturn : turn host cheat.lines x with
    | ok y => exact ⟨y, rfl⟩
    | error fault =>
      rw [turn_fault hturn] at hturn
      obtain ⟨bound, hbound⟩ := BoundedLoop.exists_fault hx
        (finished_iff.mpr (List.getElem?_eq_some_iff.mp hline).1) hturn
      exact absurd hbound (hreads bound)
  · intro hpatches bound hfault
    rcases BoundedLoop.run_error hfault with heq | ⟨x, hx, hfinished, hturn⟩
    · exact nomatch heq
    · have hline := List.getElem?_eq_getElem (finished_iff.mp hfinished)
      obtain ⟨y, hy⟩ := (turn_ok_iff hline).mpr (hpatches x hx _ hline)
      exact nomatch hturn.symm.trans hy

/-- A patch that is the last line. -/
theorem execute_readsBehind :
    ¬ ∀ bound, execute noMemory ⟨[⟨.patch, 0xE0000000, 4⟩], by decide⟩ bound () ≠ .error .outOfRange :=
  fun h => h 1 (by decide)

end SweepDSEmu.Cheats
