import SweepDSEmu.VideoCore.AttributeQueues

/-!
# Command lists

A command list is a sequence of commands: a value, a header, and as many words of extra data as the header says.
`ProcessCmdList` writes them to registers; `GuessCmdRenderProperties` only looks for two registers.  Both test the
length of the list once per command.  A word outside the list is the fault `readOutside`.

* A write to a trigger register starts another list.  Faults tell whether that has happened.
* The words of memory are a parameter, by the address of a list and the position in it.
-/

namespace SweepDSEmu.VideoCore

namespace Pica

namespace CommandHeader

def cmdId (header : BitVec 32) : Nat := bitField 0 16 header
def parameterMask (header : BitVec 32) : Nat := bitField 16 4 header
def extraDataLength (header : BitVec 32) : Nat := bitField 20 8 header
def groupCommands (header : BitVec 32) : Bool := bitField 31 1 header = 1

def firstWrite (header value : BitVec 32) : RegWrite := ⟨cmdId header, value, parameterMask header⟩

def extraWrite (header : BitVec 32) (i : Nat) (value : BitVec 32) : RegWrite :=
  ⟨cmdId header + if groupCommands header then i + 1 else 0, value, parameterMask header⟩

end CommandHeader

def RegWrite.IsTrigger (w : RegWrite) : Prop := Within w.id Reg.commandBufferTrigger 2

instance (w : RegWrite) : Decidable w.IsTrigger := inferInstanceAs (Decidable (Within _ _ _))

def CommandList.reset (addr size : Nat) : CommandList := ⟨addr, size / 4, 0⟩

inductive ListFault
  /-- A word outside the list. -/
  | readOutside (index length : Nat) (triggered : Bool)
  | write (fault : Fault)
  /-- More turns than were given. -/
  | unfinished (triggered : Bool)

structure CommandReader (σ : Type) where
  list : σ → CommandList
  setList : σ → CommandList → σ
  write : σ → RegWrite → Except Fault σ
  /-- No more words of extra data are read. -/
  stops : σ → Bool
  /-- The loop is left after the first write of a command. -/
  breaks : σ → Bool
  /-- The loop is left before a command. -/
  leaves : σ → Bool
  nextTurn : σ → σ
  list_setList : ∀ s l, list (setList s l) = l
  list_write : ∀ s w s', write s w = .ok s' → ¬ w.IsTrigger → list s' = list s
  list_nextTurn : ∀ s, list (nextTurn s) = list s

/-- The state of a reader, and whether a trigger register was written. -/
structure Progress (σ : Type) where
  state : σ
  triggered : Bool

namespace CommandReader

variable {σ : Type} (r : CommandReader σ) (word : Nat → Nat → BitVec 32)

def advance (s : σ) (count : Nat) : σ :=
  r.setList s { r.list s with currentIndex := (r.list s).currentIndex + count }

/-- `cmd_list.head[cmd_list.current_index++]`. -/
def read (p : Progress σ) : Except ListFault (BitVec 32 × Progress σ) :=
  let list := r.list p.state
  if list.currentIndex < list.length then
    .ok (word list.addr list.currentIndex, { p with state := r.advance p.state 1 })
  else .error (.readOutside list.currentIndex list.length p.triggered)

def writeReg (p : Progress σ) (w : RegWrite) : Except ListFault (Progress σ) :=
  match r.write p.state w with
  | .ok s => .ok ⟨s, p.triggered || decide w.IsTrigger⟩
  | .error fault => .error (.write fault)

/-- The loop over the extra data of a command, with `n` words left. -/
def extraLoop (header : BitVec 32) : Nat → Nat → Progress σ → Except ListFault (Progress σ)
  | 0, _, p => .ok p
  | n + 1, i, p =>
    if r.stops p.state then .ok p
    else do
      let (value, p) ← r.read word p
      let p ← r.writeReg p (CommandHeader.extraWrite header i value)
      extraLoop header n (i + 1) p

/-- The rest of a command after its first write.  The result tells whether the loop is left. -/
def extraData (header : BitVec 32) (p : Progress σ) : Except ListFault (Bool × Progress σ) :=
  if r.breaks p.state then .ok (true, p)
  else do
    let p ← r.extraLoop word header (CommandHeader.extraDataLength header) 0 p
    .ok (false, { p with state := r.nextTurn p.state })

def turn (p : Progress σ) : Except ListFault (Bool × Progress σ) := do
  let p := if (r.list p.state).currentIndex % 2 ≠ 0 then { p with state := r.advance p.state 1 } else p
  let (value, p) ← r.read word p
  let (header, p) ← r.read word p
  let p ← r.writeReg p (CommandHeader.firstWrite header value)
  r.extraData word header p

def loop : Nat → Progress σ → Except ListFault (Progress σ)
  | 0, p => .error (.unfinished p.triggered)
  | turns + 1, p =>
    if (r.list p.state).length ≤ (r.list p.state).currentIndex ∨ r.leaves p.state then .ok p
    else do
      let (left, p) ← r.turn word p
      if left then return p else loop turns p

end CommandReader

namespace CommandReader

variable {σ : Type} (r : CommandReader σ) (word : Nat → Nat → BitVec 32)

def next (s : σ) : BitVec 32 := word (r.list s).addr (r.list s).currentIndex

/-- How many words of extra data come up to the one whose write stops the command, or fails, or starts another list. -/
def extraRead (header : BitVec 32) : Nat → Nat → σ → Nat
  | 0, _, _ => 0
  | n + 1, i, s =>
    if r.stops s then 0
    else
      let w := CommandHeader.extraWrite header i (r.next word s)
      1 + if w.IsTrigger then 0 else
        match r.write (r.advance s 1) w with
        | .ok s => extraRead header n (i + 1) s
        | .error _ => 0

def align (s : σ) : σ := if (r.list s).currentIndex % 2 ≠ 0 then r.advance s 1 else s

def CommandFits (s : σ) : Prop :=
  let s := r.align s
  let header := r.next word (r.advance s 1)
  (r.list s).currentIndex + 2 ≤ (r.list s).length ∧
    ∀ s', r.write (r.advance (r.advance s 1) 1) (CommandHeader.firstWrite header (r.next word s)) = .ok s' →
      ¬ (CommandHeader.firstWrite header (r.next word s)).IsTrigger → r.breaks s' = false →
        (r.list s').currentIndex + r.extraRead word header (CommandHeader.extraDataLength header) 0 s' ≤
          (r.list s').length

/-- The loop goes on to a command. -/
def Continues (s : σ) : Prop := (r.list s).currentIndex < (r.list s).length ∧ r.leaves s = false

/-- A command that is read and that does not start another list. -/
def NextTurn (s s' : σ) : Prop := r.Continues s ∧ r.turn word ⟨s, false⟩ = .ok (false, ⟨s', false⟩)

/-- Every command that the loop gets to lies in the list. -/
def CommandsFit (s₀ : σ) : Prop :=
  ∀ s, Relation.ReflTransGen (r.NextTurn word) s₀ s → r.Continues s → r.CommandFits word s

variable {r word} {s : σ} {n i : Nat} {header : BitVec 32}

@[simp] theorem list_advance (count : Nat) :
    r.list (r.advance s count) = { r.list s with currentIndex := (r.list s).currentIndex + count } :=
  r.list_setList _ _

def ReadsOutside {α : Type} (x : Except ListFault α) : Prop :=
  ∃ index length, x = .error (.readOutside index length false)

/-- Once another list is started, faults tell so. -/
private abbrev Told {α : Type} (Q : α → Prop) : Except ListFault α → Prop :=
  Outcome (fun e => ∀ index length, e ≠ .readOutside index length false ∧ e ≠ .unfinished false) Q

theorem read_told (s : σ) : Told (fun a => a.2.triggered = true) (r.read word ⟨s, true⟩) := by
  unfold read
  dsimp only
  split
  · rfl
  · simp [Told, Outcome]

theorem writeReg_told (s : σ) (w : RegWrite) : Told (fun p => p.triggered = true) (r.writeReg ⟨s, true⟩ w) := by
  unfold writeReg
  split
  · rfl
  · simp [Told, Outcome]

theorem extraLoop_told (p : Progress σ) (hp : p.triggered = true) :
    Told (fun p => p.triggered = true) (r.extraLoop word header n i p) := by
  induction n generalizing i p with
  | zero => exact hp
  | succ n ih =>
    obtain ⟨s, triggered⟩ := p
    cases hp
    unfold extraLoop
    split
    · rfl
    · refine Outcome.bind (read_told s) ?_
      rintro ⟨value, s, triggered⟩ htold
      cases htold
      exact Outcome.bind (writeReg_told s _) fun p hp => ih p hp

theorem not_readsOutside_ok {α : Type} (a : α) : ¬ ReadsOutside (.ok a) := fun ⟨_, _, h⟩ => nomatch h

theorem not_readsOutside_write {α : Type} (fault : Fault) :
    ¬ ReadsOutside (.error (.write fault) : Except ListFault α) :=
  fun ⟨_, _, h⟩ => nomatch h

theorem Told.not_readsOutside {α : Type} {Q : α → Prop} {x : Except ListFault α} (h : Told Q x) : ¬ ReadsOutside x := by
  rintro ⟨index, length, rfl⟩
  exact (h index length).1 rfl

theorem readsOutside_map {α β : Type} {x : Except ListFault α} {f : α → β} :
    ReadsOutside (x >>= fun a => .ok (f a)) ↔ ReadsOutside x := by
  cases x with
  | ok a => exact iff_of_false (not_readsOutside_ok _) (not_readsOutside_ok _)
  | error e => simp [ReadsOutside, Bind.bind, Except.bind]

theorem read_ok (h : (r.list s).currentIndex < (r.list s).length) (triggered : Bool) :
    r.read word ⟨s, triggered⟩ = .ok (r.next word s, ⟨r.advance s 1, triggered⟩) := if_pos h

theorem read_error (h : ¬ (r.list s).currentIndex < (r.list s).length) :
    r.read word ⟨s, false⟩ = .error (.readOutside (r.list s).currentIndex (r.list s).length false) := if_neg h

theorem writeReg_error {w : RegWrite} {fault : Fault} (h : r.write s w = .error fault) :
    r.writeReg ⟨s, false⟩ w = .error (.write fault) := by
  simp [writeReg, h]

theorem writeReg_ok {w : RegWrite} {s' : σ} (h : r.write s w = .ok s') :
    r.writeReg ⟨s, false⟩ w = .ok ⟨s', decide w.IsTrigger⟩ := by
  simp [writeReg, h]

theorem extraLoop_readsOutside_iff (hle : (r.list s).currentIndex ≤ (r.list s).length) :
    ReadsOutside (r.extraLoop word header n i ⟨s, false⟩) ↔
      (r.list s).length < (r.list s).currentIndex + r.extraRead word header n i s := by
  induction n generalizing i s with
  | zero => exact iff_of_false (not_readsOutside_ok _) (by simpa [extraRead] using hle)
  | succ n ih =>
    unfold extraLoop extraRead
    by_cases hstops : r.stops s = true
    · rw [if_pos hstops, if_pos hstops]
      exact iff_of_false (not_readsOutside_ok _) (by omega)
    · rw [if_neg hstops, if_neg hstops]
      by_cases hlt : (r.list s).currentIndex < (r.list s).length
      · rw [read_ok hlt, ok_bind]
        dsimp only
        generalize CommandHeader.extraWrite header i (r.next word s) = w
        cases hwrite : r.write (r.advance s 1) w with
        | error fault =>
          rw [writeReg_error hwrite]
          refine iff_of_false (not_readsOutside_write _) ?_
          simp only [ite_self]
          omega
        | ok s' =>
          rw [writeReg_ok hwrite, ok_bind]
          by_cases htrigger : w.IsTrigger
          · rw [if_pos htrigger, decide_eq_true htrigger]
            exact iff_of_false (extraLoop_told _ rfl).not_readsOutside (by omega)
          · rw [if_neg htrigger, decide_eq_false htrigger]
            have hlist : r.list s' = { r.list s with currentIndex := (r.list s).currentIndex + 1 } := by
              rw [r.list_write _ _ _ hwrite htrigger, list_advance]
            rw [ih (by rw [hlist]; exact hlt), hlist]
            dsimp only
            omega
      · rw [read_error hlt]
        refine iff_of_true ⟨_, _, rfl⟩ (Nat.lt_of_le_of_lt (not_lt.mp hlt) ?_)
        exact Nat.lt_add_of_pos_right (Nat.lt_of_lt_of_le Nat.one_pos (Nat.le_add_right _ _))

theorem extraLoop_list {s' : σ} (h : r.extraLoop word header n i ⟨s, false⟩ = .ok ⟨s', false⟩) :
    (r.list s').length = (r.list s).length ∧ (r.list s).currentIndex ≤ (r.list s').currentIndex := by
  induction n generalizing i s with
  | zero =>
    cases h
    exact ⟨rfl, le_rfl⟩
  | succ n ih =>
    unfold extraLoop at h
    split at h
    · cases h
      exact ⟨rfl, le_rfl⟩
    · by_cases hlt : (r.list s).currentIndex < (r.list s).length
      · rw [read_ok hlt, ok_bind] at h
        dsimp only at h
        generalize CommandHeader.extraWrite header i (r.next word s) = w at h
        cases hwrite : r.write (r.advance s 1) w with
        | error fault =>
          rw [writeReg_error hwrite] at h
          cases h
        | ok s₁ =>
          rw [writeReg_ok hwrite, ok_bind] at h
          by_cases htrigger : w.IsTrigger
          · have htold : Told (fun p => p.triggered = true)
                (r.extraLoop word header n (i + 1) ⟨s₁, decide w.IsTrigger⟩) :=
              extraLoop_told _ (decide_eq_true htrigger)
            rw [h] at htold
            cases htold
          · rw [decide_eq_false htrigger] at h
            have hlist := r.list_write _ _ _ hwrite htrigger
            rw [list_advance] at hlist
            obtain ⟨hlength, hindex⟩ := ih h
            rw [hlist] at hlength hindex
            exact ⟨hlength, by dsimp only at hindex; omega⟩
      · rw [read_error hlt] at h
        cases h

theorem list_align :
    (r.list (r.align s)).length = (r.list s).length ∧ (r.list s).currentIndex ≤ (r.list (r.align s)).currentIndex := by
  unfold align
  split
  · rw [list_advance]
    exact ⟨rfl, Nat.le_succ _⟩
  · exact ⟨rfl, le_rfl⟩

private theorem turn_eq : r.turn word ⟨s, false⟩ = (do
    let (value, p) ← r.read word ⟨r.align s, false⟩
    let (header, p) ← r.read word p
    let p ← r.writeReg p (CommandHeader.firstWrite header value)
    r.extraData word header p) := by
  unfold turn align
  split
  · rfl
  · rfl

theorem extraData_told (p : Progress σ) (hp : p.triggered = true) :
    Told (fun a => a.2.triggered = true) (r.extraData word header p) := by
  unfold extraData
  split
  · exact hp
  · exact Outcome.bind (extraLoop_told p hp) fun _ hp => hp

theorem turn_readsOutside_iff : ReadsOutside (r.turn word ⟨s, false⟩) ↔ ¬ r.CommandFits word s := by
  rw [turn_eq]
  unfold CommandFits
  by_cases hvalue : (r.list (r.align s)).currentIndex < (r.list (r.align s)).length
  · rw [read_ok hvalue, ok_bind]
    dsimp only
    by_cases hheader : (r.list (r.align s)).currentIndex + 1 < (r.list (r.align s)).length
    · rw [read_ok (by rw [list_advance]; exact hheader), ok_bind]
      generalize CommandHeader.firstWrite (r.next word (r.advance (r.align s) 1)) (r.next word (r.align s)) = w
      cases hwrite : r.write (r.advance (r.advance (r.align s) 1) 1) w with
      | error fault =>
        rw [writeReg_error hwrite]
        refine iff_of_false (not_readsOutside_write _) (not_not_intro ⟨hheader, ?_⟩)
        intro s' h
        cases h
      | ok s' =>
        rw [writeReg_ok hwrite, ok_bind]
        by_cases htrigger : w.IsTrigger
        · rw [decide_eq_true htrigger]
          refine iff_of_false (extraData_told _ rfl).not_readsOutside (not_not_intro ⟨hheader, ?_⟩)
          exact fun _ _ hnot => absurd htrigger hnot
        · rw [decide_eq_false htrigger, extraData]
          by_cases hbreaks : r.breaks s' = true
          · rw [if_pos hbreaks]
            refine iff_of_false (not_readsOutside_ok _) (not_not_intro ⟨hheader, ?_⟩)
            rintro s'' heq - hbreaks'
            cases heq
            rw [hbreaks] at hbreaks'
            cases hbreaks'
          · rw [if_neg hbreaks]
            have hlist := r.list_write _ _ _ hwrite htrigger
            rw [list_advance, list_advance] at hlist
            have hle : (r.list s').currentIndex ≤ (r.list s').length := by
              rw [hlist]
              exact hheader
            have hfalse : r.breaks s' = false := Bool.not_eq_true _ ▸ hbreaks
            rw [readsOutside_map, extraLoop_readsOutside_iff hle]
            constructor
            · rintro hlt ⟨-, hfits⟩
              exact absurd (hfits s' rfl htrigger hfalse) (not_le.mpr hlt)
            · intro hnot
              by_contra hge
              refine hnot ⟨hheader, ?_⟩
              rintro s'' heq - -
              cases heq
              exact not_lt.mp hge
    · rw [read_error (by rw [list_advance]; exact hheader)]
      exact iff_of_true ⟨_, _, rfl⟩ fun hfits => hheader hfits.1
  · rw [read_error hvalue]
    exact iff_of_true ⟨_, _, rfl⟩ fun hfits => hvalue (by have := hfits.1; omega)

theorem extraData_list {left : Bool} {s' : σ} (h : r.extraData word header ⟨s, false⟩ = .ok (left, ⟨s', false⟩)) :
    (r.list s').length = (r.list s).length ∧ (r.list s).currentIndex ≤ (r.list s').currentIndex := by
  unfold extraData at h
  split at h
  · cases h
    exact ⟨rfl, le_rfl⟩
  · obtain ⟨⟨s₁, triggered⟩, hloop, h⟩ := ok_of_bind h
    cases h
    rw [r.list_nextTurn]
    exact extraLoop_list hloop

theorem turn_list {left : Bool} {s' : σ} (h : r.turn word ⟨s, false⟩ = .ok (left, ⟨s', false⟩)) :
    (r.list s').length = (r.list s).length ∧ (r.list s).currentIndex + 2 ≤ (r.list s').currentIndex := by
  obtain ⟨hlength, hindex⟩ := list_align (r := r) (s := s)
  rw [turn_eq] at h
  obtain ⟨⟨value, p⟩, hvalue, h⟩ := ok_of_bind h
  have hlt : (r.list (r.align s)).currentIndex < (r.list (r.align s)).length := by
    by_contra hnot
    rw [read_error hnot] at hvalue
    cases hvalue
  rw [read_ok hlt] at hvalue
  cases hvalue
  obtain ⟨⟨header, p⟩, hheader, h⟩ := ok_of_bind h
  have hlt' : (r.list (r.advance (r.align s) 1)).currentIndex < (r.list (r.advance (r.align s) 1)).length := by
    by_contra hnot
    rw [read_error hnot] at hheader
    cases hheader
  rw [read_ok hlt'] at hheader
  cases hheader
  generalize r.next word (r.advance (r.align s) 1) = header at h
  obtain ⟨p, hwrite, h⟩ := ok_of_bind h
  generalize CommandHeader.firstWrite header (r.next word (r.align s)) = w at hwrite
  cases hw : r.write (r.advance (r.advance (r.align s) 1) 1) w with
  | error fault =>
    rw [writeReg_error hw] at hwrite
    cases hwrite
  | ok s₁ =>
    rw [writeReg_ok hw] at hwrite
    cases hwrite
    have htrigger : ¬ w.IsTrigger := by
      intro htrigger
      have htold : Told (fun a => a.2.triggered = true) (r.extraData word header ⟨s₁, decide w.IsTrigger⟩) :=
        extraData_told _ (decide_eq_true htrigger)
      rw [h] at htold
      cases htold
    have hlist := r.list_write _ _ _ hw htrigger
    rw [list_advance, list_advance] at hlist
    rw [decide_eq_false htrigger] at h
    obtain ⟨hlength', hindex'⟩ := extraData_list h
    rw [hlist] at hlength' hindex'
    dsimp only at hlength' hindex'
    constructor
    · omega
    · omega

theorem turn_ne_unfinished (p : Progress σ) (triggered : Bool) : r.turn word p ≠ .error (.unfinished triggered) := by
  have hread (p : Progress σ) : Outcome (· ≠ .unfinished triggered) (fun _ => True) (r.read word p) := by
    unfold read
    dsimp only
    split
    · trivial
    · simp [Outcome]
  have hwrite (p : Progress σ) (w : RegWrite) :
      Outcome (· ≠ .unfinished triggered) (fun _ => True) (r.writeReg p w) := by
    unfold writeReg
    split
    · trivial
    · simp [Outcome]
  have hloop (header : BitVec 32) (n i : Nat) (p : Progress σ) :
      Outcome (· ≠ .unfinished triggered) (fun _ => True) (r.extraLoop word header n i p) := by
    induction n generalizing i p with
    | zero => trivial
    | succ n ih =>
      unfold extraLoop
      split
      · trivial
      · exact Outcome.bind (hread p) fun _ _ => Outcome.bind (hwrite _ _) fun _ _ => ih _ _
  have hturn : Outcome (· ≠ .unfinished triggered) (fun _ => True) (r.turn word p) := by
    refine Outcome.bind (hread _) fun _ _ => Outcome.bind (hread _) fun _ _ => Outcome.bind (hwrite _ _) fun p _ => ?_
    unfold extraData
    split
    · trivial
    · exact Outcome.bind (hloop _ _ _ _) fun _ _ => trivial
  intro h
  rw [h] at hturn
  exact hturn rfl

theorem turn_told (p : Progress σ) (hp : p.triggered = true) :
    Told (fun a => a.2.triggered = true) (r.turn word p) := by
  obtain ⟨s, triggered⟩ := p
  cases hp
  unfold turn
  have halign (s : σ) : Told (fun a => a.2.triggered = true) (r.read word ⟨s, true⟩ >>= fun a =>
      r.read word a.2 >>= fun b => r.writeReg b.2 (CommandHeader.firstWrite b.1 a.1) >>= fun p =>
        r.extraData word b.1 p) := by
    refine Outcome.bind (read_told s) ?_
    rintro ⟨value, s, triggered⟩ htold
    cases htold
    refine Outcome.bind (read_told s) ?_
    rintro ⟨header, s, triggered⟩ htold
    cases htold
    exact Outcome.bind (writeReg_told s _) fun p hp => extraData_told p hp
  split
  · exact halign _
  · exact halign _

theorem loop_told (turns : Nat) (p : Progress σ) (hp : p.triggered = true) :
    Told (fun p => p.triggered = true) (r.loop word turns p) := by
  induction turns generalizing p with
  | zero => simp [loop, Told, Outcome, hp]
  | succ turns ih =>
    unfold loop
    split
    · exact hp
    · refine Outcome.bind (turn_told p hp) ?_
      rintro ⟨left, p⟩ htold
      dsimp only
      split
      · exact htold
      · exact ih p htold

theorem commandsFit_iff : r.CommandsFit word s ↔
    (r.Continues s → r.CommandFits word s) ∧ ∀ s', r.NextTurn word s s' → r.CommandsFit word s' := by
  constructor
  · intro h
    exact ⟨h s .refl, fun s' hnext s'' hreach => h s'' (.head hnext hreach)⟩
  · rintro ⟨hfits, hrest⟩ s' hreach
    rcases hreach.cases_head with rfl | ⟨s₁, hnext, hreach⟩
    · exact hfits
    · exact hrest s₁ hnext s' hreach

theorem loop_readsOutside_iff {turns : Nat} (hturns : (r.list s).length - (r.list s).currentIndex < turns) :
    (ReadsOutside (r.loop word turns ⟨s, false⟩) ↔ ¬ r.CommandsFit word s) ∧
      r.loop word turns ⟨s, false⟩ ≠ .error (.unfinished false) := by
  induction turns generalizing s with
  | zero => exact absurd hturns (Nat.not_lt_zero _)
  | succ turns ih =>
    unfold loop
    rw [commandsFit_iff]
    by_cases hcontinues : r.Continues s
    · have hnot : ¬ ((r.list s).length ≤ (r.list s).currentIndex ∨ r.leaves s = true) := by
        rintro (hle | hleaves)
        · exact absurd hcontinues.1 (not_lt.mpr hle)
        · rw [hcontinues.2] at hleaves
          cases hleaves
      have hfits : ReadsOutside (r.turn word ⟨s, false⟩) ↔ ¬ r.CommandFits word s := turn_readsOutside_iff
      have hne : r.turn word ⟨s, false⟩ ≠ .error (.unfinished false) := turn_ne_unfinished _ _
      rw [if_neg hnot]
      cases hturn : r.turn word ⟨s, false⟩ with
      | error e =>
        have hlast : ∀ s', r.NextTurn word s s' → r.CommandsFit word s' := by
          rintro s' ⟨-, hnext⟩
          rw [hturn] at hnext
          cases hnext
        rw [hturn] at hfits hne
        have hbind {β : Type} (f : Bool × Progress σ → Except ListFault β) :
            ((.error e : Except ListFault (Bool × Progress σ)) >>= f) = .error e := rfl
        refine ⟨?_, fun heq => hne (by cases heq; rfl)⟩
        constructor
        · rintro ⟨index, length, heq⟩ hall
          cases heq
          exact hfits.mp ⟨_, _, rfl⟩ (hall.1 hcontinues)
        · intro hall
          obtain ⟨index, length, heq⟩ := hfits.mpr fun h => hall ⟨fun _ => h, hlast⟩
          cases heq
          exact ⟨_, _, rfl⟩
      | ok a =>
        obtain ⟨left, s', triggered⟩ := a
        have hfit : r.CommandFits word s := by
          by_contra hnot
          have := hfits.mpr hnot
          rw [hturn] at this
          exact not_readsOutside_ok _ this
        rw [ok_bind]
        dsimp only
        cases left with
        | true =>
          have hlast : ∀ s', r.NextTurn word s s' → r.CommandsFit word s' := by
            rintro s' ⟨-, hnext⟩
            rw [hturn] at hnext
            cases hnext
          exact ⟨iff_of_false (not_readsOutside_ok _) (not_not_intro ⟨fun _ => hfit, hlast⟩), fun h => nomatch h⟩
        | false =>
          rw [if_neg Bool.false_ne_true]
          cases triggered with
          | true =>
            have hlast : ∀ s', r.NextTurn word s s' → r.CommandsFit word s' := by
              rintro s' ⟨-, hnext⟩
              rw [hturn] at hnext
              cases hnext
            have htold : Told (fun p => p.triggered = true) (r.loop word turns ⟨s', true⟩) := loop_told turns _ rfl
            refine ⟨iff_of_false htold.not_readsOutside (not_not_intro ⟨fun _ => hfit, hlast⟩), fun h => ?_⟩
            rw [h] at htold
            exact (htold 0 0).2 rfl
          | false =>
            obtain ⟨hlength, hindex⟩ := turn_list hturn
            have hcurrent := hcontinues.1
            obtain ⟨hiff, hends⟩ := ih (s := s') (by omega)
            refine ⟨hiff.trans (not_congr ⟨fun h => ⟨fun _ => hfit, ?_⟩, fun h => h.2 s' ⟨hcontinues, hturn⟩⟩), hends⟩
            rintro s'' ⟨-, hnext⟩
            rw [hturn] at hnext
            cases hnext
            exact h
    · have hends : (r.list s).length ≤ (r.list s).currentIndex ∨ r.leaves s = true := by
        by_contra hnot
        rw [not_or, not_le, Bool.not_eq_true] at hnot
        exact hcontinues hnot
      rw [if_pos hends]
      have hlast : ∀ s', r.NextTurn word s s' → r.CommandsFit word s' := by
        rintro s' ⟨hcontinues', -⟩
        exact absurd hcontinues' hcontinues
      refine ⟨iff_of_false (not_readsOutside_ok _) (not_not_intro ⟨?_, hlast⟩), fun h => nomatch h⟩
      exact fun h => absurd h hcontinues

end CommandReader

variable {V : Type}

namespace PicaCore

theorem submitImmediate_cmdList {s : PicaCore V} (host : Host V) (value : BitVec 32) :
    Returns (fun s' => s'.cmdList = s.cmdList) (s.submitImmediate host value) := by
  have hsubmit (s : PicaCore V) (vector : V) :
      Returns (fun s' => s'.cmdList = s.cmdList) (s.submitAttribute host vector) := by
    unfold submitAttribute
    dsimp only
    split
    · exact Outcome.bind (P := fun _ => True) (Outcome.intro (by simp) (by simp)) fun _ _ => rfl
    · refine Outcome.bind (P := fun _ => True) (Outcome.intro (by simp) (by simp)) fun _ _ => ?_
      split
      · rfl
      · rfl
  refine Outcome.bind (P := fun _ => True) (Outcome.intro (by simp) (by simp)) ?_
  rintro ⟨full, queue⟩ -
  dsimp only
  split
  · split
    · rfl
    · exact hsubmit _ _
  · rfl

theorem cmdList_of_write {s s' : PicaCore V} {host : Host V} {w : RegWrite} (htrigger : ¬ w.IsTrigger)
    (hwrite : s.writeInternalReg host w.id w.value w.mask = .ok s') : s'.cmdList = s.cmdList := by
  by_cases hlt : w.id < 0x300
  · obtain ⟨word, s₁, dirtyRegs, heffects, rfl⟩ := writeInternalReg_of hlt hwrite
    have hlist : Returns (fun s' => s'.cmdList = s.cmdList)
        (sideEffects host { s with regArray := Function.update s.regArray ⟨w.id, hlt⟩ word } w.id w.value) := by
      by_cases hid : Within w.id Reg.vsDefaultAttributesValue 3
      · rw [sideEffects_vsDefaultAttributesValue host hid]
        exact submitImmediate_cmdList host w.value
      · exact (sideEffects_keepsList host hid htrigger w.value).mono fun s' hs' => hs'.cmdList
    rw [heffects] at hlist
    exact hlist
  · unfold writeInternalReg at hwrite
    rw [dif_neg hlt] at hwrite
    cases hwrite
    rfl

def processReader (host : Host V) : CommandReader (PicaCore V) where
  list s := s.cmdList
  setList s cmdList := { s with cmdList := cmdList }
  write s w := s.writeInternalReg host w.id w.value w.mask
  stops s := s.stopRequested
  breaks _ := false
  leaves s := s.stopRequested
  nextTurn s := s
  list_setList _ _ := rfl
  list_write _ _ _ hwrite htrigger := cmdList_of_write htrigger hwrite
  list_nextTurn _ := rfl

def startList (s : PicaCore V) (addr size : Nat) : PicaCore V :=
  { s with cmdList := CommandList.reset addr size, stopRequested := false }

def processCmdList (host : Host V) (word : Nat → Nat → BitVec 32) (s : PicaCore V) (addr size : Nat)
    (ignoreList : Bool) : Except ListFault (Progress (PicaCore V)) :=
  if ignoreList then .ok ⟨{ s with interrupts := s.interrupts + 1 }, false⟩
  else (processReader host).loop word (size / 4 + 1) ⟨s.startList addr size, false⟩

end PicaCore

structure RenderPropertiesGuess where
  vpHeight : Nat
  paddr : Nat
  vpHeightFound : Bool
  paddrFound : Bool

structure GuessState (V : Type) where
  core : PicaCore V
  findInfo : RenderPropertiesGuess
  iterations : Nat

namespace GuessState

def viewportSizeY : Reg := 0x043
def colorBufferAddress : Reg := 0x11d

def processWrite (s : GuessState V) (cmdId : Nat) (value : BitVec 32) : GuessState V :=
  if cmdId = viewportSizeY.val then
    { s with findInfo := { s.findInfo with vpHeight := value.toNat, vpHeightFound := true } }
  else if cmdId = colorBufferAddress.val then
    { s with findInfo := { s.findInfo with paddr := value.toNat * 8 % 2 ^ 32, paddrFound := true } }
  else if cmdId = Reg.commandBufferTrigger.val then { s with core := s.core.triggerCommandBuffer 0 }
  else if cmdId = Reg.commandBufferTrigger.val + 1 then { s with core := s.core.triggerCommandBuffer 1 }
  else s

def found (s : GuessState V) : Bool := s.findInfo.vpHeightFound && s.findInfo.paddrFound

theorem cmdList_processWrite {s : GuessState V} {w : RegWrite} (htrigger : ¬ w.IsTrigger) :
    (s.processWrite w.id w.value).core.cmdList = s.core.cmdList := by
  have hfirst : w.id ≠ Reg.commandBufferTrigger.val := fun heq => htrigger ⟨heq.ge, by rw [heq]; omega⟩
  have hsecond : w.id ≠ Reg.commandBufferTrigger.val + 1 := fun heq => htrigger ⟨by rw [heq]; omega, by rw [heq]; omega⟩
  unfold processWrite
  split
  · rfl
  · split
    · rfl
    · rfl

/-- What reads the list in `GuessCmdRenderProperties`. -/
def guessReader : CommandReader (GuessState V) where
  list s := s.core.cmdList
  setList s cmdList := { s with core := { s.core with cmdList := cmdList } }
  write s w := .ok (s.processWrite w.id w.value)
  stops s := s.found
  breaks s := s.found
  leaves s := 0x100 ≤ s.iterations
  nextTurn s := { s with iterations := s.iterations + 1 }
  list_setList _ _ := rfl
  list_write _ _ _ hwrite htrigger := Except.ok.inj hwrite ▸ cmdList_processWrite htrigger
  list_nextTurn _ := rfl

def start (s : PicaCore V) (addr size : Nat) : GuessState V where
  core := { s with cmdList := CommandList.reset addr size }
  findInfo := {
    vpHeight := bitField 0 24 (s.regArray viewportSizeY)
    paddr := bitField 0 28 (s.regArray colorBufferAddress) * 8
    vpHeightFound := false
    paddrFound := false }
  iterations := 0

end GuessState

def PicaCore.guessCmdRenderProperties (word : Nat → Nat → BitVec 32) (s : PicaCore V) (addr size : Nat) :
    Except ListFault (RenderPropertiesGuess × Progress (GuessState V)) := do
  let p ← GuessState.guessReader.loop word (size / 4 + 1) ⟨GuessState.start s addr size, false⟩
  .ok (p.state.findInfo, p)

open CommandReader

private theorem guessReader_loop (word : Nat → Nat → BitVec 32) (s : PicaCore V) (addr size : Nat) :
    (ReadsOutside (GuessState.guessReader.loop word (size / 4 + 1) ⟨GuessState.start s addr size, false⟩) ↔
      ¬ GuessState.guessReader.CommandsFit word (GuessState.start s addr size)) ∧
    GuessState.guessReader.loop word (size / 4 + 1) ⟨GuessState.start s addr size, false⟩ ≠
      .error (.unfinished false) :=
  loop_readsOutside_iff (Nat.lt_succ_of_le (Nat.sub_le _ _))

private theorem processReader_loop (host : Host V) (word : Nat → Nat → BitVec 32) (s : PicaCore V) (addr size : Nat) :
    (ReadsOutside ((PicaCore.processReader host).loop word (size / 4 + 1) ⟨s.startList addr size, false⟩) ↔
      ¬ (PicaCore.processReader host).CommandsFit word (s.startList addr size)) ∧
    (PicaCore.processReader host).loop word (size / 4 + 1) ⟨s.startList addr size, false⟩ ≠
      .error (.unfinished false) :=
  loop_readsOutside_iff (Nat.lt_succ_of_le (Nat.sub_le _ _))

/-- As long as no other list is started, the words that are read lie in the list exactly when every command that the
loop gets to does, with the extra data that is read; and the loops end. -/
theorem commandLists_inBounds_iff (host : Host V) (word : Nat → Nat → BitVec 32) (s : PicaCore V) (addr size : Nat) :
    (∀ ignoreList, (¬ ReadsOutside (s.processCmdList host word addr size ignoreList) ↔
        ignoreList = true ∨ (PicaCore.processReader host).CommandsFit word (s.startList addr size)) ∧
      s.processCmdList host word addr size ignoreList ≠ .error (.unfinished false)) ∧
    (¬ ReadsOutside (s.guessCmdRenderProperties word addr size) ↔
        GuessState.guessReader.CommandsFit word (GuessState.start s addr size)) ∧
      s.guessCmdRenderProperties word addr size ≠ .error (.unfinished false) := by
  have hguess := guessReader_loop word s addr size
  refine ⟨fun ignoreList => ?_, ?_, ?_⟩
  · cases ignoreList with
    | true => exact ⟨iff_of_true (not_readsOutside_ok _) (.inl rfl), fun h => nomatch h⟩
    | false =>
      have hprocess := processReader_loop host word s addr size
      refine ⟨?_, hprocess.2⟩
      exact (not_congr hprocess.1).trans (not_not.trans (by simp))
  · unfold PicaCore.guessCmdRenderProperties
    rw [readsOutside_map]
    exact (not_congr hguess.1).trans not_not
  · unfold PicaCore.guessCmdRenderProperties
    intro h
    cases hloop : GuessState.guessReader.loop word (size / 4 + 1) ⟨GuessState.start s addr size, false⟩ with
    | ok p =>
      rw [hloop] at h
      cases h
    | error e =>
      rw [hloop] at h
      cases h
      exact hguess.2 hloop

/-- A list of two words whose header has one word of extra data, and a list of one word. -/
theorem initial_readsOutside :
    ReadsOutside ((PicaCore.initial fun _ => 0).processCmdList rawHost (fun _ _ => 0x00100000) 0x20000000 8 false) ∧
      ReadsOutside ((PicaCore.initial (V := Table (BitVec 32) 4) fun _ => 0).guessCmdRenderProperties
        (fun _ _ => 0) 0x20000000 4) :=
  ⟨⟨2, 2, rfl⟩, ⟨1, 1, rfl⟩⟩

end Pica

end SweepDSEmu.VideoCore
