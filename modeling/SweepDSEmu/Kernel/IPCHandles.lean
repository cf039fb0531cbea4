import SweepDSEmu.Kernel.IPC
import SweepDSEmu.Lib.Outcome

/-!
# Moved and copied handles

A descriptor that moves handles should close each of them in the source process and give the destination one new
reference to the same object; a descriptor that copies handles should leave the source alone.

Both translators close a handle when the whole descriptor equals `moveHandle`, so only descriptors that carry one
handle and have no other bit set do move.  `conserves_iff` says that this is the only thing that goes wrong.
-/

namespace SweepDSEmu

open Handle IPC HandleTable Function

namespace IPC

variable {Obj : Type}

/-- A value that is looked up in the handle table. -/
def NonPseudo (h : Handle) : Prop := h ≠ 0 ∧ h ≠ currentThread ∧ h ≠ currentProcess

instance : DecidablePred NonPseudo := fun _ => inferInstanceAs (Decidable (_ ≠ _ ∧ _ ≠ _ ∧ _ ≠ _))

/-- Two values that the handle table does not tell apart. -/
def SameEntry (h h' : Handle) : Prop := getSlot h = getSlot h' ∧ getGeneration h = getGeneration h'

instance (h h' : Handle) : Decidable (SameEntry h h') := inferInstanceAs (Decidable (_ ∧ _))

def listHandles (cmdBuf : CmdBuf) (descriptor : UInt32) : Nat → Nat → List (UInt32 × Handle)
  | 0, _ => []
  | numHandles + 1, i => (descriptor, cmdBuf i) :: listHandles cmdBuf descriptor numHandles (i + 1)

def handlesFrom (cmdBuf : CmdBuf) (commandSize : Nat) : Nat → Nat → List (UInt32 × Handle)
  | 0, _ => []
  | fuel + 1, i =>
    if i < commandSize then
      match getDescriptorType (cmdBuf i) with
      | .copyHandle | .moveHandle =>
        listHandles cmdBuf (cmdBuf i) (handleNumberFromDesc (cmdBuf i)) (i + 1) ++
          handlesFrom cmdBuf commandSize fuel (i + 1 + handleNumberFromDesc (cmdBuf i))
      | .callingPid | .staticBuffer | .mappedBuffer => handlesFrom cmdBuf commandSize fuel (i + 2)
      | .pxiBuffer | .unnamed => handlesFrom cmdBuf commandSize fuel (i + 1)
    else []

def handlesOf (cmdBuf : CmdBuf) : List (UInt32 × Handle) :=
  handlesFrom cmdBuf (commandSize cmdBuf) (commandSize cmdBuf) (untranslatedSize cmdBuf)

structure NewHandle (cur : Current Obj) (t : HandleTable Obj) (obj : Obj) (h : Handle) (t' : HandleTable Obj) :
    Prop where
  isNew : t.isValid h = false
  refers : t'.getGeneric cur h = some obj
  only : ∀ h', t'.isValid h' = true → t.isValid h' = true ∨ SameEntry h h'
  kept : ∀ h', t.isValid h' = true → t'.isValid h' = true ∧ t'.objects (getSlot h') = t.objects (getSlot h')

/-- What the translation of one handle should do to the table of the source. -/
structure MoveCopyLaw (cur : Current Obj) (src : HandleTable Obj) (descriptor : UInt32) (h : Handle)
    (src' : HandleTable Obj) (delivered : Obj → Prop) : Prop where
  moved : getDescriptorType descriptor = .moveHandle → NonPseudo h → src.isValid h = true → src'.isValid h = false
  delivered : NonPseudo h → ∀ obj, src.getGeneric cur h = some obj → delivered obj
  copied : getDescriptorType descriptor = .copyHandle → src' = src
  others : ∀ h', ¬ SameEntry h h' → src'.isValid h' = src.isValid h'

def runTurns {S : Type} (turn : S → UInt32 → Handle → Except Fault (UInt32 × S)) :
    S → List (UInt32 × Handle) → Except Fault (List UInt32 × S)
  | s, [] => .ok ([], s)
  | s, (descriptor, h) :: turns => do
    let (word, s) ← turn s descriptor h
    let (words, s) ← runTurns turn s turns
    return (word :: words, s)

def Conserves {S : Type} (turn : S → UInt32 → Handle → Except Fault (UInt32 × S))
    (law : S → UInt32 → Handle → UInt32 → S → Prop) (s : S) (turns : List (UInt32 × Handle)) : Prop :=
  ∀ older descriptor h newer, turns = older ++ (descriptor, h) :: newer →
    ∀ words s₁, runTurns turn s older = .ok (words, s₁) →
      ∀ word s₂, turn s₁ descriptor h = .ok (word, s₂) → law s₁ descriptor h word s₂

/-- Every move descriptor that lists a valid handle is the word `moveHandle`, unless such a word has already moved the
handle. -/
def SingleMoves (src : HandleTable Obj) (turns : List (UInt32 × Handle)) : Prop :=
  ∀ older descriptor h newer, turns = older ++ (descriptor, h) :: newer →
    getDescriptorType descriptor = .moveHandle → NonPseudo h → src.isValid h = true →
      (∀ p ∈ older, p.1 = moveHandle → NonPseudo p.2 → ¬ SameEntry p.2 h) → descriptor = moveHandle

def moveOut (src : HandleTable Obj) (p : UInt32 × Handle) : HandleTable Obj :=
  if p.1 = moveHandle ∧ NonPseudo p.2 then closeIgnored src p.2 else src

theorem isValid_congr {t : HandleTable Obj} {h h' : Handle} (hs : SameEntry h h') : t.isValid h = t.isValid h' := by
  unfold isValid
  rw [hs.1, hs.2]

theorem isValid_closeIgnored (t : HandleTable Obj) (h h' : Handle) :
    (closeIgnored t h).isValid h' = true ↔ t.isValid h' = true ∧ ¬ SameEntry h h' := by
  by_cases hv : t.isValid h = true
  · have hobj : (closeIgnored t h).objects = update t.objects (getSlot h) none := by
      unfold closeIgnored close
      rw [if_pos hv]
    have hgens : (closeIgnored t h).generations = update t.generations (getSlot h) t.nextFreeSlot := by
      unfold closeIgnored close
      rw [if_pos hv]
    obtain ⟨-, -, hgen⟩ := isValid_iff.mp hv
    rw [isValid_iff, isValid_iff, hobj, hgens]
    by_cases hs : getSlot h' = getSlot h
    · rw [hs]
      constructor
      · rintro ⟨-, hnone, -⟩
        rw [update_self] at hnone
        cases hnone
      · rintro ⟨⟨-, -, hgen'⟩, hne⟩
        exact absurd ⟨hs.symm, hgen.symm.trans hgen'⟩ hne
    · rw [update_of_ne hs, update_of_ne hs]
      constructor
      · exact fun hv' => ⟨hv', fun he => hs he.1.symm⟩
      · exact fun hv' => hv'.1
  · have hsame : closeIgnored t h = t := by
      unfold closeIgnored close
      rw [if_neg hv]
    rw [hsame]
    constructor
    · intro hv'
      exact ⟨hv', fun he => hv (by rw [isValid_congr he]; exact hv')⟩
    · exact fun hv' => hv'.1

theorem isValid_moveOut (t : HandleTable Obj) (p : UInt32 × Handle) (h : Handle) :
    (moveOut t p).isValid h = true ↔
      t.isValid h = true ∧ (p.1 = moveHandle → NonPseudo p.2 → ¬ SameEntry p.2 h) := by
  unfold moveOut
  split
  · rename_i hp
    rw [isValid_closeIgnored]
    exact ⟨fun hv => ⟨hv.1, fun _ _ => hv.2⟩, fun hv => ⟨hv.1, hv.2 hp.1 hp.2⟩⟩
  · rename_i hp
    exact ⟨fun hv => ⟨hv, fun h1 h2 => absurd ⟨h1, h2⟩ hp⟩, fun hv => hv.1⟩

theorem isValid_foldl_moveOut (t : HandleTable Obj) (turns : List (UInt32 × Handle)) (h : Handle) :
    (turns.foldl moveOut t).isValid h = true ↔
      t.isValid h = true ∧ ∀ p ∈ turns, p.1 = moveHandle → NonPseudo p.2 → ¬ SameEntry p.2 h := by
  induction turns generalizing t with
  | nil => simp
  | cons p turns ih =>
    rw [List.foldl_cons, ih, isValid_moveOut]
    simp only [List.mem_cons, forall_eq_or_imp, and_assoc]

/-- What both translators do with a handle: the source changes by `moveOut`, and the object is delivered. -/
structure Translator {S : Type} (cur : Current Obj) (turn : S → UInt32 → Handle → Except Fault (UInt32 × S))
    (src : S → HandleTable Obj) (inv : S → Prop) (delivered : S → Obj → UInt32 → S → Prop) : Prop where
  keeps : ∀ s d h w s', inv s → turn s d h = .ok (w, s') → inv s'
  moves : ∀ s d h w s', turn s d h = .ok (w, s') → src s' = moveOut (src s) (d, h)
  delivers : ∀ s d h w s', inv s → turn s d h = .ok (w, s') → NonPseudo h →
    ∀ obj, (src s).getGeneric cur h = some obj → delivered s obj w s'

section Translator

variable {S : Type} {cur : Current Obj} {turn : S → UInt32 → Handle → Except Fault (UInt32 × S)}
  {src : S → HandleTable Obj} {inv : S → Prop} {delivered : S → Obj → UInt32 → S → Prop}

variable {turns : List (UInt32 × Handle)} {words : List UInt32}

theorem runTurns_append {s s' : S} {older newer : List (UInt32 × Handle)}
    (h : runTurns turn s (older ++ newer) = .ok (words, s')) :
    ∃ words₁ s₁ words₂, runTurns turn s older = .ok (words₁, s₁) ∧ runTurns turn s₁ newer = .ok (words₂, s') ∧
      words = words₁ ++ words₂ := by
  induction older generalizing s words with
  | nil => exact ⟨[], s, words, rfl, h, rfl⟩
  | cons p older ih =>
    obtain ⟨d, handle⟩ := p
    obtain ⟨⟨w, s₀⟩, hturn, h⟩ := ok_of_bind h
    obtain ⟨⟨ws, s₂⟩, hrun, h⟩ := ok_of_bind h
    cases h
    obtain ⟨words₁, s₁, words₂, h1, h2, rfl⟩ := ih hrun
    refine ⟨w :: words₁, s₁, words₂, ?_, h2, rfl⟩
    unfold runTurns
    rw [hturn]
    simp only [bind, Except.bind, h1]
    rfl

theorem runTurns_trans {s s₁ s' : S} {older newer : List (UInt32 × Handle)} {words₁ words₂ : List UInt32}
    (h1 : runTurns turn s older = .ok (words₁, s₁)) (h2 : runTurns turn s₁ newer = .ok (words₂, s')) :
    runTurns turn s (older ++ newer) = .ok (words₁ ++ words₂, s') := by
  induction older generalizing s words₁ with
  | nil =>
    cases h1
    exact h2
  | cons p older ih =>
    obtain ⟨d, handle⟩ := p
    obtain ⟨⟨w, s₀⟩, hturn, h1⟩ := ok_of_bind h1
    obtain ⟨⟨ws, s₂⟩, hrun, h1⟩ := ok_of_bind h1
    cases h1
    rw [List.cons_append]
    unfold runTurns
    rw [hturn]
    simp only [bind, Except.bind, ih hrun]
    rfl

theorem Translator.run (ht : Translator cur turn src inv delivered) {s s' : S} (hinv : inv s) (h : runTurns turn s turns = .ok (words, s')) :
    inv s' ∧ src s' = turns.foldl moveOut (src s) := by
  induction turns generalizing s words with
  | nil =>
    cases h
    exact ⟨hinv, rfl⟩
  | cons p turns ih =>
    obtain ⟨d, handle⟩ := p
    obtain ⟨⟨w, s₀⟩, hturn, h⟩ := ok_of_bind h
    obtain ⟨⟨ws, s₂⟩, hrun, h⟩ := ok_of_bind h
    cases h
    obtain ⟨h1, h2⟩ := ih (ht.keeps s d handle w s₀ hinv hturn) hrun
    exact ⟨h1, by rw [h2, ht.moves s d handle w s₀ hturn, List.foldl_cons]⟩

def Translator.law (_ : Translator cur turn src inv delivered) (s : S) (d : UInt32) (h : Handle) (w : UInt32) (s' : S) :
    Prop := MoveCopyLaw cur (src s) d h (src s') fun obj => delivered s obj w s'

theorem Translator.conserves_iff (ht : Translator cur turn src inv delivered) {s s' : S} (hinv : inv s)
    (h : runTurns turn s turns = .ok (words, s')) : Conserves turn ht.law s turns ↔ SingleMoves (src s) turns := by
  constructor
  · intro hlaw older d handle newer hturns hmove hp hv hno
    subst hturns
    obtain ⟨words₁, s₁, words₂, h1, h2, -⟩ := runTurns_append h
    obtain ⟨⟨w, s₂⟩, hturn, -⟩ := ok_of_bind h2
    have hsrc := (ht.run hinv h1).2
    -- the handle is still valid when its turn comes
    have hv₁ : (src s₁).isValid handle = true := by
      rw [hsrc, isValid_foldl_moveOut]
      exact ⟨hv, hno⟩
    have hclosed := (hlaw older d handle newer rfl words₁ s₁ h1 w s₂ hturn).moved hmove hp hv₁
    by_contra hd
    rw [ht.moves s₁ d handle w s₂ hturn] at hclosed
    have hsame : moveOut (src s₁) (d, handle) = src s₁ := if_neg fun hc => hd hc.1
    rw [hsame, hv₁] at hclosed
    cases hclosed
  · intro hsingle older d handle newer hturns words₁ s₁ h1 w s₂ hturn
    obtain ⟨hinv₁, hsrc⟩ := ht.run hinv h1
    have hsrc₂ := ht.moves s₁ d handle w s₂ hturn
    refine ⟨?_, ht.delivers s₁ d handle w s₂ hinv₁ hturn, ?_, ?_⟩
    · intro hmove hp hv
      rw [hsrc, isValid_foldl_moveOut] at hv
      have hd := hsingle older d handle newer hturns hmove hp hv.1 hv.2
      rw [hsrc₂, Bool.eq_false_iff]
      intro hv'
      exact ((isValid_moveOut _ _ _).mp hv').2 hd hp ⟨rfl, rfl⟩
    · intro hcopy
      rw [hsrc₂]
      refine if_neg fun hc => ?_
      have hmove : getDescriptorType moveHandle = .moveHandle := by decide
      rw [← show d = moveHandle from hc.1, hcopy] at hmove
      cases hmove
    · intro h' hne
      rw [hsrc₂, Bool.eq_iff_iff, isValid_moveOut]
      exact ⟨fun hv => hv.1, fun hv => ⟨hv, fun _ _ => hne⟩⟩

theorem Translator.closed (ht : Translator cur turn src inv delivered) {s s' : S} (hinv : inv s) (h : runTurns turn s turns = .ok (words, s'))
    (hsingle : SingleMoves (src s) turns) {p : UInt32 × Handle} (hp : p ∈ turns)
    (hmove : getDescriptorType p.1 = .moveHandle) (hn : NonPseudo p.2) : (src s').isValid p.2 = false := by
  obtain ⟨older, newer, rfl⟩ := List.append_of_mem hp
  rw [(ht.run hinv h).2, Bool.eq_false_iff]
  intro hv
  obtain ⟨hv, hno⟩ := (isValid_foldl_moveOut _ _ _).mp hv
  have hd := hsingle older p.1 p.2 newer rfl hmove hn hv fun q hq => hno q (List.mem_append_left _ hq)
  exact hno p hp hd hn ⟨rfl, rfl⟩

end Translator

theorem listHandles_congr {b b' : CmdBuf} {d : UInt32} {n i : Nat} (h : ∀ j, i ≤ j → j < i + n → b' j = b j) :
    listHandles b' d n i = listHandles b d n i := by
  induction n generalizing i with
  | zero => rfl
  | succ n ih =>
    unfold listHandles
    rw [h i (by omega) (by omega), ih fun j hj hj' => h j (by omega) (by omega)]

theorem handlesFrom_congr {b b' : CmdBuf} {size fuel i : Nat} (h : ∀ j, i ≤ j → b' j = b j) :
    handlesFrom b' size fuel i = handlesFrom b size fuel i := by
  induction fuel generalizing i with
  | zero => rfl
  | succ fuel ih =>
    unfold handlesFrom
    rw [h i le_rfl, ih fun j hj => h j (by omega), ih fun j hj => h j (by omega), ih fun j hj => h j (by omega),
      listHandles_congr fun j hj _ => h j (by omega)]

theorem put_ok {b b' : CmdBuf} {i : Nat} {w : UInt32} (h : put b i w = .ok b') :
    b' i = w ∧ ∀ j, j ≠ i → b' j = b j := by
  unfold put assert at h
  split at h
  · cases h
    exact ⟨update_self _ _ _, fun j hj => update_of_ne hj _ _⟩
  · cases h

end IPC

namespace Translation

variable {Obj M Pid : Type} {args : TranslateArgs Obj M Pid}

private theorem giveHandle_ok {src dst : HandleTable Obj} {object : Option Obj} {w : UInt32} {s' : Tables Obj}
    (h : giveHandle src dst object = .ok (w, s')) :
    s'.src = src ∧ (∀ obj, object = some obj → dst.create obj = .ok (w, s'.dst)) ∧
      (s'.dst = dst ∨ ∃ obj, dst.create obj = .ok (w, s'.dst)) := by
  cases object with
  | none =>
    cases h
    exact ⟨rfl, (fun _ ho => nomatch ho), Or.inl rfl⟩
  | some obj =>
    simp only [giveHandle] at h
    cases hc : dst.create obj with
    | error e =>
      rw [hc] at h
      cases h
    | ok r =>
      rw [hc] at h
      cases h
      refine ⟨rfl, ?_, Or.inr ⟨obj, hc⟩⟩
      intro obj' ho
      cases ho
      exact hc

theorem handleTurn_ok {s s' : Tables Obj} {d : UInt32} {h : Handle} {w : UInt32}
    (hturn : handleTurn args s d h = .ok (w, s')) :
    s'.src = moveOut s.src (d, h) ∧
      (NonPseudo h → ∀ obj, s.src.getGeneric args.current h = some obj → s.dst.create obj = .ok (w, s'.dst)) ∧
      (s'.dst = s.dst ∨ ∃ obj, s.dst.create obj = .ok (w, s'.dst)) := by
  unfold handleTurn at hturn
  by_cases h1 : h = currentThread
  · rw [if_pos h1] at hturn
    obtain ⟨hs, -, hd⟩ := giveHandle_ok hturn
    refine ⟨?_, fun hp => absurd h1 hp.2.1, hd⟩
    rw [hs, moveOut, if_neg fun hc => hc.2.2.1 h1]
  · by_cases h2 : h = currentProcess
    · rw [if_neg h1, if_pos h2] at hturn
      obtain ⟨hs, -, hd⟩ := giveHandle_ok hturn
      refine ⟨?_, fun hp => absurd h2 hp.2.2, hd⟩
      rw [hs, moveOut, if_neg fun hc => hc.2.2.2 h2]
    · by_cases h3 : h ≠ 0
      · rw [if_neg h1, if_neg h2, if_pos h3] at hturn
        obtain ⟨hs, ho, hd⟩ := giveHandle_ok hturn
        refine ⟨?_, fun _ => ho, hd⟩
        rw [hs, moveOut]
        by_cases hm : d = moveHandle
        · rw [if_pos hm, if_pos ⟨hm, h3, h1, h2⟩]
        · rw [if_neg hm, if_neg fun hc => hm hc.1]
      · rw [if_neg h1, if_neg h2, if_neg h3] at hturn
        obtain ⟨hs, -, hd⟩ := giveHandle_ok hturn
        refine ⟨?_, fun hp => absurd hp.1 h3, hd⟩
        rw [hs, moveOut, if_neg fun hc => h3 hc.2.1]

theorem newHandle_of_create {t t' : HandleTable Obj} (ht : t.Reachable) (cur : Current Obj) {obj : Obj} {h : Handle}
    (hc : t.create obj = .ok (h, t')) : NewHandle cur t obj h t' := by
  obtain ⟨hlt, hnone, hgen, rfl, hobj, hg⟩ := ht.create_spec hc
  have hslot : t.nextFreeSlot < 2 ^ 16 := by
    unfold maxCount at hlt
    omega
  have hs := getSlot_pack hgen hslot
  have hg' := getGeneration_pack hgen hslot
  have hpack := toNat_pack hgen hslot
  have hsmall : (pack t.nextGeneration t.nextFreeSlot).toNat < 2 ^ 31 := by
    omega
  have hvalid : t'.isValid (pack t.nextGeneration t.nextFreeSlot) = true := by
    rw [isValid_iff, hs, hg', hobj, hg, update_self, update_self]
    exact ⟨hlt, rfl, rfl⟩
  refine ⟨?_, ?_, ?_, ?_⟩
  · rw [Bool.eq_false_iff]
    intro hv
    have := (isValid_iff.mp hv).2.1
    rw [hs, hnone] at this
    cases this
  · rw [getGeneric_of_lt hsmall, if_pos hvalid, hs, hobj, update_self]
  · intro h' hv
    obtain ⟨h1, h2, h3⟩ := isValid_iff.mp hv
    by_cases he : getSlot h' = t.nextFreeSlot
    · rw [he, hg, update_self] at h3
      exact Or.inr ⟨by rw [hs, he], by rw [hg', h3]⟩
    · rw [hobj, update_of_ne he] at h2
      rw [hg, update_of_ne he] at h3
      exact Or.inl (isValid_iff.mpr ⟨h1, h2, h3⟩)
  · intro h' hv
    obtain ⟨h1, h2, h3⟩ := isValid_iff.mp hv
    have he : getSlot h' ≠ t.nextFreeSlot := by
      intro he
      rw [he, hnone] at h2
      cases h2
    refine ⟨isValid_iff.mpr ⟨h1, ?_, ?_⟩, ?_⟩
    · rw [hobj, update_of_ne he]
      exact h2
    · rw [hg, update_of_ne he]
      exact h3
    · rw [hobj, update_of_ne he]

/-- `TranslateCommandBuffer` as a translator; a delivered object has one new handle in the destination. -/
theorem translator (args : TranslateArgs Obj M Pid) :
    Translator args.current (handleTurn args) Tables.src (fun s => s.dst.Reachable)
      fun s obj w s' => NewHandle args.current s.dst obj w s'.dst where
  keeps s d h w s' hs hturn := by
    rcases (handleTurn_ok hturn).2.2 with hd | ⟨obj, hc⟩
    · rw [hd]
      exact hs
    · exact hs.create hc
  moves s d h w s' hturn := (handleTurn_ok hturn).1
  delivers s d h w s' hs hturn hp obj ho := newHandle_of_create hs _ ((handleTurn_ok hturn).2.1 hp obj ho)

variable {t t' : Translation Obj M}

theorem translateHandles_turns {d : UInt32} {n i : Nat} (h : translateHandles args d n i t = .ok t') :
    ∃ words, runTurns (handleTurn args) t.tables (listHandles t.cmdBuf d n i) = .ok (words, t'.tables) ∧
      listHandles t'.cmdBuf d n i = words.map (Prod.mk d) ∧
      ∀ j, j < i ∨ i + n ≤ j → t'.cmdBuf j = t.cmdBuf j := by
  induction n generalizing i t with
  | zero =>
    cases h
    exact ⟨[], rfl, rfl, fun _ _ => rfl⟩
  | succ n ih =>
    obtain ⟨⟨w, tables⟩, hturn, h⟩ := ok_of_bind h
    obtain ⟨b, hput, h⟩ := ok_of_bind h
    obtain ⟨hi, hj⟩ := put_ok hput
    obtain ⟨words, hrun, hwords, hkeep⟩ := ih h
    refine ⟨w :: words, ?_, ?_, ?_⟩
    · unfold listHandles runTurns
      have hcongr : listHandles b d n (i + 1) = listHandles t.cmdBuf d n (i + 1) :=
        listHandles_congr fun j h1 _ => hj j (by omega)
      simp only at hrun
      rw [hcongr] at hrun
      simp only [hturn, bind, Except.bind, hrun]
      rfl
    · unfold listHandles
      rw [hwords, hkeep i (by omega)]
      simp only [hi, List.map_cons]
    · intro j h1
      rw [hkeep j (by omega)]
      exact hj j (by omega)

/-- A step of the loop that handles no handles. -/
def Skips (t : Translation Obj M) (i : Nat) (t' : Translation Obj M) : Prop :=
  t'.tables = t.tables ∧ ∀ j, j ≠ i → t'.cmdBuf j = t.cmdBuf j

theorem translateCallingPid_skips {i : Nat} (h : translateCallingPid args i t = .ok t') : t.Skips i t' := by
  obtain ⟨b, hput, h⟩ := ok_of_bind h
  cases h
  exact ⟨rfl, (put_ok hput).2⟩

theorem translateStaticBuffer_skips {d : UInt32} {i : Nat} (h : translateStaticBuffer args d i t = .ok t') :
    t.Skips i t' := by
  obtain ⟨_, -, h⟩ := ok_of_bind h
  obtain ⟨_, -, h⟩ := ok_of_bind h
  obtain ⟨b, hput, h⟩ := ok_of_bind h
  cases h
  exact ⟨rfl, (put_ok hput).2⟩

private theorem translateMappedReply_skips {permissions size sourceAddress i : Nat}
    (h : translateMappedReply args permissions size sourceAddress t = .ok t') : t.Skips i t' := by
  obtain ⟨_, -, h⟩ := ok_of_bind h
  obtain ⟨_, -, h⟩ := ok_of_bind h
  obtain ⟨_, -, h⟩ := ok_of_bind h
  obtain ⟨_, -, h⟩ := ok_of_bind h
  obtain ⟨⟨_, _⟩, -, h⟩ := ok_of_bind h
  obtain ⟨_, -, h⟩ := ok_of_bind h
  cases h
  exact ⟨rfl, fun _ _ => rfl⟩

private theorem translateMappedRequest_skips {permissions size sourceAddress i : Nat}
    (h : translateMappedRequest args permissions size sourceAddress i t = .ok t') : t.Skips i t' := by
  obtain ⟨⟨r, m⟩, -, h⟩ := ok_of_bind h
  cases r with
  | error e => cases h
  | ok address =>
    obtain ⟨_, -, h⟩ := ok_of_bind h
    obtain ⟨_, -, h⟩ := ok_of_bind h
    obtain ⟨b, hput, h⟩ := ok_of_bind h
    cases h
    exact ⟨rfl, (put_ok hput).2⟩

theorem translateMappedBuffer_skips {d : UInt32} {i : Nat} (h : translateMappedBuffer args d i t = .ok t') :
    t.Skips i t' := by
  obtain ⟨_, -, h⟩ := ok_of_bind h
  simp only at h
  split at h
  · obtain ⟨b, hput, h⟩ := ok_of_bind h
    cases h
    exact ⟨rfl, (put_ok hput).2⟩
  · split at h
    · exact translateMappedReply_skips h
    · exact translateMappedRequest_skips h

/-- What the loop over the descriptors does from a position on: it translates the handles of the message one by one. -/
def Turns (args : TranslateArgs Obj M Pid) (size fuel i : Nat) (t t' : Translation Obj M) : Prop :=
  ∃ words, runTurns (handleTurn args) t.tables (handlesFrom t.cmdBuf size fuel i) = .ok (words, t'.tables) ∧
    (handlesFrom t'.cmdBuf size fuel i).map Prod.snd = words ∧ ∀ j, j < i → t'.cmdBuf j = t.cmdBuf j

private theorem Skips.turns {t₁ : Translation Obj M} {size fuel i k : Nat} (hk : k = 1 ∨ k = 2)
    (hskip : t.Skips (i + 1) t₁ ∨ t₁ = t) (h : Turns args size fuel (i + k) t₁ t')
    (heq : ∀ b : CmdBuf, b i = t.cmdBuf i → handlesFrom b size (fuel + 1) i = handlesFrom b size fuel (i + k))
    (hlast : k = 1 → t₁ = t) : Turns args size (fuel + 1) i t t' := by
  obtain ⟨words, hrun, hwords, hkeep⟩ := h
  have htables : t₁.tables = t.tables := by
    rcases hskip with hskip | rfl
    · exact hskip.1
    · rfl
  have hbuf : ∀ j, j ≤ i ∨ i + k ≤ j → t₁.cmdBuf j = t.cmdBuf j := by
    intro j hj
    rcases hskip with hskip | rfl
    · by_cases hk1 : k = 1
      · rw [hlast hk1]
      · exact hskip.2 j (by omega)
    · rfl
  have hi : t'.cmdBuf i = t.cmdBuf i := (hkeep i (by omega)).trans (hbuf i (by omega))
  refine ⟨words, ?_, ?_, ?_⟩
  · rw [heq _ rfl, ← handlesFrom_congr fun j hj => hbuf j (Or.inr hj), ← htables]
    exact hrun
  · rw [heq _ hi]
    exact hwords
  · intro j hj
    exact (hkeep j (by omega)).trans (hbuf j (by omega))

private theorem translateLoop_turns {size fuel i : Nat} (h : translateLoop args size fuel i t = .ok (.success, t')) :
    Turns args size fuel i t t' := by
  induction fuel generalizing i t with
  | zero =>
    cases h
    exact ⟨[], rfl, rfl, fun _ _ => rfl⟩
  | succ fuel ih =>
    unfold translateLoop at h
    by_cases hlt : i < size
    · rw [if_pos hlt] at h
      -- the positions that the descriptor takes up, in the old and in the new message
      have hfrom : ∀ b : CmdBuf, b i = t.cmdBuf i → handlesFrom b size (fuel + 1) i =
          match getDescriptorType (t.cmdBuf i) with
          | .copyHandle | .moveHandle =>
            listHandles b (t.cmdBuf i) (handleNumberFromDesc (t.cmdBuf i)) (i + 1) ++
              handlesFrom b size fuel (i + 1 + handleNumberFromDesc (t.cmdBuf i))
          | .callingPid | .staticBuffer | .mappedBuffer => handlesFrom b size fuel (i + 2)
          | .pxiBuffer | .unnamed => handlesFrom b size fuel (i + 1) := by
        intro b hb
        rw [← hb]
        exact if_pos hlt
      have hhandles : (do
          let t₁ ← translateHandles args (t.cmdBuf i) (handleNumberFromDesc (t.cmdBuf i)) (i + 1) t
          translateLoop args size fuel (i + 1 + handleNumberFromDesc (t.cmdBuf i)) t₁) = .ok (.success, t') →
          (∀ b : CmdBuf, b i = t.cmdBuf i → handlesFrom b size (fuel + 1) i =
            listHandles b (t.cmdBuf i) (handleNumberFromDesc (t.cmdBuf i)) (i + 1) ++
              handlesFrom b size fuel (i + 1 + handleNumberFromDesc (t.cmdBuf i))) →
          Turns args size (fuel + 1) i t t' := by
        intro h heq
        obtain ⟨t₁, h1, h2⟩ := ok_of_bind h
        obtain ⟨words₁, hrun₁, hwords₁, hkeep₁⟩ := translateHandles_turns h1
        obtain ⟨words₂, hrun₂, hwords₂, hkeep₂⟩ := ih h2
        have hi : t'.cmdBuf i = t.cmdBuf i := (hkeep₂ i (by omega)).trans (hkeep₁ i (by omega))
        refine ⟨words₁ ++ words₂, ?_, ?_, ?_⟩
        · rw [heq _ rfl]
          refine runTurns_trans hrun₁ ?_
          rw [← handlesFrom_congr fun j hj => hkeep₁ j (Or.inr hj)]
          exact hrun₂
        · rw [heq _ hi, List.map_append, hwords₂, listHandles_congr fun j h1 h2 => hkeep₂ j (by omega), hwords₁,
            List.map_map]
          congr 1
          exact List.map_id' _
        · intro j hj
          exact (hkeep₂ j (by omega)).trans (hkeep₁ j (by omega))
      cases htype : getDescriptorType (t.cmdBuf i) with
      | copyHandle =>
        simp only [htype] at h hfrom
        split at h
        · cases h
        · exact hhandles h hfrom
      | moveHandle =>
        simp only [htype] at h hfrom
        split at h
        · cases h
        · exact hhandles h hfrom
      | callingPid =>
        simp only [htype] at h hfrom
        obtain ⟨t₁, h1, h2⟩ := ok_of_bind h
        exact Skips.turns (k := 2) (Or.inr rfl) (Or.inl (translateCallingPid_skips h1)) (ih h2) hfrom (by omega)
      | staticBuffer =>
        simp only [htype] at h hfrom
        obtain ⟨t₁, h1, h2⟩ := ok_of_bind h
        exact Skips.turns (k := 2) (Or.inr rfl) (Or.inl (translateStaticBuffer_skips h1)) (ih h2) hfrom (by omega)
      | mappedBuffer =>
        simp only [htype] at h hfrom
        obtain ⟨t₁, h1, h2⟩ := ok_of_bind h
        exact Skips.turns (k := 2) (Or.inr rfl) (Or.inl (translateMappedBuffer_skips h1)) (ih h2) hfrom (by omega)
      | pxiBuffer =>
        simp only [htype] at h hfrom
        exact Skips.turns (k := 1) (Or.inl rfl) (Or.inr rfl) (ih h) hfrom fun _ => rfl
      | unnamed =>
        simp only [htype] at h hfrom
        exact Skips.turns (k := 1) (Or.inl rfl) (Or.inr rfl) (ih h) hfrom fun _ => rfl
    · rw [if_neg hlt] at h
      cases h
      have hnil : ∀ b : CmdBuf, handlesFrom b size (fuel + 1) i = [] := fun b => if_neg hlt
      exact ⟨[], by rw [hnil]; rfl, by rw [hnil]; rfl, fun _ _ => rfl⟩

end Translation

namespace RequestContext

variable {Obj M Pid : Type} {args : PopulateArgs Obj M Pid}

theorem handleTurn_ok {s s' : Incoming Obj} {d : UInt32} {h : Handle} {w : UInt32}
    (hturn : handleTurn args s d h = .ok (w, s')) :
    s'.src = moveOut s.src (d, h) ∧
      (NonPseudo h → ∀ obj, s.src.getGeneric args.current h = some obj →
        w = UInt32.ofNat s.requestHandles.length ∧ s'.requestHandles = s.requestHandles ++ [some obj]) := by
  unfold handleTurn at hturn
  by_cases h0 : h ≠ 0
  · rw [if_pos h0] at hturn
    cases hget : s.src.getGeneric args.current h with
    | none =>
      rw [hget] at hturn
      cases hturn
    | some object =>
      rw [hget] at hturn
      cases hturn
      refine ⟨?_, ?_⟩
      · show (if d = moveHandle then closeIgnored s.src h else s.src) = _
        unfold moveOut
        by_cases hd : d = moveHandle
        · by_cases hp : NonPseudo h
          · rw [if_pos hd, if_pos ⟨hd, hp⟩]
          · -- a pseudo-handle is not in the table, so that closing it fails
            rw [if_pos hd, if_neg fun hc => hp hc.2]
            have hslot : ¬ getSlot h < maxCount := by
              have hpseudo : h = currentThread ∨ h = currentProcess := by
                by_contra hc
                exact hp ⟨h0, fun he => hc (Or.inl he), fun he => hc (Or.inr he)⟩
              rcases hpseudo with rfl | rfl
              · decide
              · decide
            unfold closeIgnored close
            rw [if_neg fun hv => hslot (isValid_iff.mp hv).1]
        · rw [if_neg hd, if_neg fun hc => hd hc.1]
      · intro _ obj ho
        cases ho
        exact ⟨rfl, rfl⟩
  · rw [if_neg h0] at hturn
    cases hturn
    refine ⟨?_, fun hp => absurd hp.1 h0⟩
    exact (if_neg fun hc => h0 hc.2.1).symm

/-- `PopulateFromIncomingCommandBuffer` as a translator; a delivered object is one new entry of the request. -/
theorem translator (args : PopulateArgs Obj M Pid) :
    Translator args.current (handleTurn args) Incoming.src (fun _ => True)
      fun s obj w s' => w = UInt32.ofNat s.requestHandles.length ∧ s'.requestHandles = s.requestHandles ++ [some obj] where
  keeps _ _ _ _ _ _ _ := trivial
  moves _ _ _ _ _ hturn := (handleTurn_ok hturn).1
  delivers _ _ _ _ _ _ hturn hp obj ho := (handleTurn_ok hturn).2 hp obj ho

variable {c c' : RequestContext Obj}

private theorem populateHandles_turns {d : UInt32} {n i : Nat} (h : populateHandles args d n i c = .ok c') :
    ∃ words, runTurns (handleTurn args) c.incoming (listHandles args.srcCmdbuf d n i) = .ok (words, c'.incoming) ∧
      listHandles c'.cmdBuf d n i = words.map (Prod.mk d) ∧
      ∀ j, j < i ∨ i + n ≤ j → c'.cmdBuf j = c.cmdBuf j := by
  induction n generalizing i c with
  | zero =>
    cases h
    exact ⟨[], rfl, rfl, fun _ _ => rfl⟩
  | succ n ih =>
    obtain ⟨⟨w, incoming⟩, hturn, h⟩ := ok_of_bind h
    obtain ⟨b, hput, h⟩ := ok_of_bind h
    obtain ⟨hi, hj⟩ := put_ok hput
    obtain ⟨words, hrun, hwords, hkeep⟩ := ih h
    refine ⟨w :: words, ?_, ?_, ?_⟩
    · unfold listHandles runTurns
      simp only at hrun
      simp only [hturn, bind, Except.bind, hrun]
      rfl
    · unfold listHandles
      rw [hwords, hkeep i (by omega)]
      simp only [hi, List.map_cons]
    · intro j h1
      rw [hkeep j (by omega)]
      exact hj j (by omega)

private theorem putWord_ok {i : Nat} {w : UInt32} (h : c.putWord i w = .ok c') :
    c'.incoming = c.incoming ∧ c'.cmdBuf i = w ∧ ∀ j, j ≠ i → c'.cmdBuf j = c.cmdBuf j := by
  obtain ⟨b, hput, h⟩ := ok_of_bind h
  cases h
  exact ⟨rfl, put_ok hput⟩

/-- What the loop over the descriptors does from a position on: it takes the handles of the message one by one. -/
def Turns (args : PopulateArgs Obj M Pid) (size fuel i : Nat) (c c' : RequestContext Obj) : Prop :=
  ∃ words, runTurns (handleTurn args) c.incoming (handlesFrom args.srcCmdbuf size fuel i) = .ok (words, c'.incoming) ∧
    (handlesFrom c'.cmdBuf size fuel i).map Prod.snd = words ∧ ∀ j, j < i → c'.cmdBuf j = c.cmdBuf j

private theorem populateLoop_turns {size fuel i : Nat} (h : populateLoop args size fuel i c = .ok c') :
    Turns args size fuel i c c' := by
  induction fuel generalizing i c with
  | zero =>
    cases h
    exact ⟨[], rfl, rfl, fun _ _ => rfl⟩
  | succ fuel ih =>
    unfold populateLoop at h
    by_cases hlt : i < size
    · rw [if_pos hlt] at h
      obtain ⟨c₀, h0, h⟩ := ok_of_bind h
      obtain ⟨hin, hw, hkeep⟩ := putWord_ok h0
      have hfrom : ∀ b : CmdBuf, b i = args.srcCmdbuf i → handlesFrom b size (fuel + 1) i =
          match getDescriptorType (args.srcCmdbuf i) with
          | .copyHandle | .moveHandle =>
            listHandles b (args.srcCmdbuf i) (handleNumberFromDesc (args.srcCmdbuf i)) (i + 1) ++
              handlesFrom b size fuel (i + 1 + handleNumberFromDesc (args.srcCmdbuf i))
          | .callingPid | .staticBuffer | .mappedBuffer => handlesFrom b size fuel (i + 2)
          | .pxiBuffer | .unnamed => handlesFrom b size fuel (i + 1) := by
        intro b hb
        rw [← hb]
        exact if_pos hlt
      -- a descriptor that takes up `k` words and lists no handles
      have hskip : ∀ k c₁, 1 ≤ k → c₁.incoming = c.incoming → (∀ j, j ≤ i → c₁.cmdBuf j = c₀.cmdBuf j) →
          Turns args size fuel (i + k) c₁ c' → (∀ b : CmdBuf, b i = args.srcCmdbuf i →
            handlesFrom b size (fuel + 1) i = handlesFrom b size fuel (i + k)) →
          Turns args size (fuel + 1) i c c' := by
        rintro k c₁ hk hin₁ hbuf ⟨words, hrun, hwords, hkeep₁⟩ heq
        refine ⟨words, ?_, ?_, ?_⟩
        · rw [heq _ rfl, ← hin₁]
          exact hrun
        · rw [heq _ ((hkeep₁ i (by omega)).trans ((hbuf i le_rfl).trans hw))]
          exact hwords
        · intro j hj
          exact (hkeep₁ j (by omega)).trans ((hbuf j (by omega)).trans (hkeep j (by omega)))
      have hhandles : (do
          assert (i + 1 + handleNumberFromDesc (args.srcCmdbuf i) ≤ size)
          let c₁ ← populateHandles args (args.srcCmdbuf i) (handleNumberFromDesc (args.srcCmdbuf i)) (i + 1) c₀
          populateLoop args size fuel (i + 1 + handleNumberFromDesc (args.srcCmdbuf i)) c₁) = .ok c' →
          (∀ b : CmdBuf, b i = args.srcCmdbuf i → handlesFrom b size (fuel + 1) i =
            listHandles b (args.srcCmdbuf i) (handleNumberFromDesc (args.srcCmdbuf i)) (i + 1) ++
              handlesFrom b size fuel (i + 1 + handleNumberFromDesc (args.srcCmdbuf i))) →
          Turns args size (fuel + 1) i c c' := by
        intro h heq
        obtain ⟨_, -, h⟩ := ok_of_bind h
        obtain ⟨c₁, h1, h2⟩ := ok_of_bind h
        obtain ⟨words₁, hrun₁, hwords₁, hkeep₁⟩ := populateHandles_turns h1
        obtain ⟨words₂, hrun₂, hwords₂, hkeep₂⟩ := ih h2
        rw [hin] at hrun₁
        have hi : c'.cmdBuf i = args.srcCmdbuf i :=
          (hkeep₂ i (by omega)).trans ((hkeep₁ i (by omega)).trans hw)
        refine ⟨words₁ ++ words₂, ?_, ?_, ?_⟩
        · rw [heq _ rfl]
          exact runTurns_trans hrun₁ hrun₂
        · rw [heq _ hi, List.map_append, hwords₂, listHandles_congr fun j h1 h2 => hkeep₂ j (by omega), hwords₁,
            List.map_map]
          congr 1
          exact List.map_id' _
        · intro j hj
          exact (hkeep₂ j (by omega)).trans ((hkeep₁ j (by omega)).trans (hkeep j (by omega)))
      cases htype : getDescriptorType (args.srcCmdbuf i) with
      | copyHandle =>
        simp only [htype] at h hfrom
        exact hhandles h hfrom
      | moveHandle =>
        simp only [htype] at h hfrom
        exact hhandles h hfrom
      | callingPid =>
        simp only [htype] at h hfrom
        obtain ⟨c₁, h1, h2⟩ := ok_of_bind h
        obtain ⟨hin₁, -, hbuf⟩ := putWord_ok h1
        exact hskip 2 c₁ (by omega) (hin₁.trans hin) (fun j hj => hbuf j (by omega)) (ih h2) hfrom
      | staticBuffer =>
        simp only [htype] at h hfrom
        obtain ⟨c₁, h1, h2⟩ := ok_of_bind h
        obtain ⟨hin₁, -, hbuf⟩ := putWord_ok h1
        exact hskip 2 c₁ (by omega) (hin₁.trans hin) (fun j hj => hbuf j (by omega)) (ih h2) hfrom
      | mappedBuffer =>
        simp only [htype] at h hfrom
        obtain ⟨c₁, h1, h2⟩ := ok_of_bind h
        obtain ⟨hin₁, -, hbuf⟩ := putWord_ok h1
        exact hskip 2 c₁ (by omega) (hin₁.trans hin) (fun j hj => hbuf j (by omega)) (ih h2) hfrom
      | pxiBuffer =>
        simp only [htype] at h hfrom
        exact hskip 1 c₀ le_rfl hin (fun _ _ => rfl) (ih h) hfrom
      | unnamed =>
        simp only [htype] at h hfrom
        exact hskip 1 c₀ le_rfl hin (fun _ _ => rfl) (ih h) hfrom
    · rw [if_neg hlt] at h
      cases h
      have hnil : ∀ b : CmdBuf, handlesFrom b size (fuel + 1) i = [] := fun b => if_neg hlt
      exact ⟨[], by rw [hnil]; rfl, by rw [hnil]; rfl, fun _ _ => rfl⟩

end RequestContext

section Law

variable {Obj M Pid : Type}

/-- The translation of the handles of a message: they are replaced by words one by one, by the law exactly when all
moves are single, and then every moved handle is closed in the end. -/
structure HandlesTranslated {S : Type} (turn : S → UInt32 → Handle → Except Fault (UInt32 × S))
    (law : S → UInt32 → Handle → UInt32 → S → Prop) (src : S → HandleTable Obj) (message : CmdBuf) (s : S)
    (message' : CmdBuf) (s' : S) : Prop where
  turns : runTurns turn s (handlesOf message) = .ok ((handlesOf message').map Prod.snd, s')
  conserves_iff : Conserves turn law s (handlesOf message) ↔ SingleMoves (src s) (handlesOf message)
  closed : SingleMoves (src s) (handlesOf message) → ∀ p ∈ handlesOf message,
    getDescriptorType p.1 = .moveHandle → NonPseudo p.2 → (src s').isValid p.2 = false

private theorem handlesTranslated {S : Type} {cur : Current Obj}
    {turn : S → UInt32 → Handle → Except Fault (UInt32 × S)} {src : S → HandleTable Obj} {inv : S → Prop}
    {delivered : S → Obj → UInt32 → S → Prop} (ht : Translator cur turn src inv delivered) {message message' : CmdBuf}
    {s s' : S} (hinv : inv s) (h : runTurns turn s (handlesOf message) = .ok ((handlesOf message').map Prod.snd, s')) :
    HandlesTranslated turn ht.law src message s message' s' :=
  ⟨h, ht.conserves_iff hinv h, fun hs _ hp hmove hn => ht.closed hinv h hs hp hmove hn⟩

private theorem handlesOf_eq {b b' : CmdBuf} (h : b' 0 = b 0) :
    handlesOf b' = handlesFrom b' (commandSize b) (commandSize b) (untranslatedSize b) := by
  unfold handlesOf commandSize untranslatedSize
  rw [h]

/-- Both translators conserve the references of a message exactly when all its moves are single. -/
theorem translators_conserve_iff :
    (∀ (args : TranslateArgs Obj M Pid) (t t' : Translation Obj M), t.tables.dst.Reachable →
      Translation.translateCommandBuffer args t = .ok (.success, t') →
        HandlesTranslated (Translation.handleTurn args) (Translation.translator args).law Tables.src
          t.cmdBuf t.tables t'.cmdBuf t'.tables) ∧
    (∀ (args : PopulateArgs Obj M Pid) (c c' : RequestContext Obj),
      RequestContext.populateFromIncomingCommandBuffer args c = .ok (.success, c') →
        HandlesTranslated (RequestContext.handleTurn args) (RequestContext.translator args).law Incoming.src
          args.srcCmdbuf c.incoming c'.cmdBuf c'.incoming) := by
  constructor
  · intro args t t' hdst h
    obtain ⟨_, -, h⟩ := ok_of_bind h
    obtain ⟨⟨result, t₁⟩, hloop, h⟩ := ok_of_bind h
    have hsuccess : result = .success ∧ t'.cmdBuf = t₁.cmdBuf ∧ t'.tables = t₁.tables := by
      split at h
      · rename_i t₂ heq
        cases heq
        cases h
        exact ⟨rfl, rfl, rfl⟩
      · rename_i e t₂ hne heq
        cases heq
        cases h
        exact (hne rfl).elim
    obtain ⟨rfl, hbuf, htables⟩ := hsuccess
    obtain ⟨words, hrun, rfl, hkeep⟩ := Translation.translateLoop_turns hloop
    have hheader : t₁.cmdBuf 0 = t.cmdBuf 0 := hkeep 0 (by unfold untranslatedSize; omega)
    apply handlesTranslated (Translation.translator args) hdst
    rw [hbuf, htables, handlesOf_eq hheader]
    exact hrun
  · intro args c c' h
    obtain ⟨_, -, h⟩ := ok_of_bind h
    obtain ⟨c₁, hloop, h⟩ := ok_of_bind h
    cases h
    obtain ⟨words, hrun, rfl, hkeep⟩ := RequestContext.populateLoop_turns hloop
    have hpos : 0 < untranslatedSize args.srcCmdbuf := by unfold untranslatedSize; omega
    have hheader : c'.cmdBuf 0 = args.srcCmdbuf 0 := (hkeep 0 hpos).trans (if_pos hpos)
    apply handlesTranslated (RequestContext.translator args) trivial
    rw [handlesOf_eq hheader]
    exact hrun

end Law

def noMemory : MemorySystem Unit Bool where
  readBlock _ _ _ _ := []
  writeBlock _ _ _ _ := ()
  copyBlock _ _ _ _ _ _ := ()
  newBuffer _ _ := (0, ())
  writeBuffer _ _ _ := ()

def twoHandles : HandleTable Nat := (HandleTable.run [.create 1, .create 2]).1

def handleOne : Handle := 0x00000001

def handleTwo : Handle := 0x00008002

def moveMessage (atOnce : Bool) : CmdBuf
  | 0 => if atOnce then 0x00000003 else 0x00000004
  | 1 => if atOnce then moveHandleDesc 2 else moveHandleDesc 1
  | 2 => handleOne
  | 3 => if atOnce then handleTwo else moveHandleDesc 1
  | 4 => if atOnce then 0 else handleTwo
  | _ => 0

def sampleTranslateArgs : TranslateArgs Nat Unit Bool where
  memory := noMemory
  srcThread := 10
  srcProcess := 11
  srcPid := false
  dstPid := true
  processId := 5
  dstAddress := 0x1000
  reply := false
  current := ⟨some 20, some 21⟩

/-- The message comes from the process `false`. -/
def samplePopulateArgs (atOnce : Bool) : PopulateArgs Nat Unit Bool where
  memory := noMemory
  memoryState := ()
  srcPid := false
  processId := 5
  srcCmdbuf := moveMessage atOnce
  current := ⟨some 20, some 21⟩

def sampleTranslation (atOnce : Bool) : Translation Nat Unit where
  cmdBuf := moveMessage atOnce
  tables := ⟨twoHandles, (HandleTable.run []).1⟩
  srcVM := VMManager.reset
  dstVM := VMManager.reset
  memory := ()
  mappedBufferContext := []

def sampleContext : RequestContext Nat where
  cmdBuf := fun _ => 0
  incoming := ⟨twoHandles, []⟩
  staticBuffers := fun _ => []
  requestMappedBuffers := []

/-- Handles that are moved one by one are closed in the source. -/
theorem moveMessage_conserved :
    ∃ t', Translation.translateCommandBuffer sampleTranslateArgs (sampleTranslation false) = .ok (.success, t') ∧
      SingleMoves twoHandles (handlesOf (moveMessage false)) ∧
      HandlesTranslated (Translation.handleTurn sampleTranslateArgs) (Translation.translator sampleTranslateArgs).law
        Tables.src (moveMessage false) (sampleTranslation false).tables t'.cmdBuf t'.tables := by
  obtain ⟨t', ht'⟩ : ∃ t', Translation.translateCommandBuffer sampleTranslateArgs (sampleTranslation false) =
      .ok (.success, t') := ⟨_, rfl⟩
  refine ⟨t', ht', ?_, ?_⟩
  · intro older d h newer hturns _ _ _ _
    have hlist : handlesOf (moveMessage false) = [(moveHandle, handleOne), (moveHandle, handleTwo)] := by decide
    have hmem : (d, h) ∈ handlesOf (moveMessage false) := by
      rw [hturns]
      simp
    rw [hlist] at hmem
    simp only [List.mem_cons, Prod.mk.injEq, List.not_mem_nil, or_false] at hmem
    rcases hmem with ⟨hd, -⟩ | ⟨hd, -⟩
    · exact hd
    · exact hd
  · exact translators_conserve_iff.1 sampleTranslateArgs (sampleTranslation false) t' ⟨[], rfl⟩ ht'

/-- Handles that are moved at once stay valid in the source, for both translators. -/
theorem moveMessage_not_conserved :
    (∃ t', Translation.translateCommandBuffer sampleTranslateArgs (sampleTranslation true) = .ok (.success, t') ∧
      t'.tables.src.isValid handleOne = true ∧ t'.tables.src.isValid handleTwo = true ∧
      ¬ Conserves (Translation.handleTurn sampleTranslateArgs) (Translation.translator sampleTranslateArgs).law
        (sampleTranslation true).tables (handlesOf (moveMessage true))) ∧
    ∃ c', RequestContext.populateFromIncomingCommandBuffer (samplePopulateArgs true) sampleContext =
        .ok (.success, c') ∧
      c'.incoming.src.isValid handleOne = true ∧ c'.incoming.src.isValid handleTwo = true ∧
      ¬ Conserves (RequestContext.handleTurn (samplePopulateArgs true))
        (RequestContext.translator (samplePopulateArgs true)).law sampleContext.incoming
        (handlesOf (moveMessage true)) := by
  have hlist : handlesOf (moveMessage true) = [] ++ (moveHandleDesc 2, handleOne) :: [(moveHandleDesc 2, handleTwo)] := by
    decide
  refine ⟨⟨_, rfl, by decide, by decide, ?_⟩, ⟨_, rfl, by decide, by decide, ?_⟩⟩
  · intro hlaw
    have hclosed := (hlaw [] _ _ _ hlist [] _ rfl _ _ rfl).moved (by decide) (by decide) (by decide)
    exact absurd hclosed (by decide)
  · intro hlaw
    have hclosed := (hlaw [] _ _ _ hlist [] _ rfl _ _ rfl).moved (by decide) (by decide) (by decide)
    exact absurd hclosed (by decide)

end SweepDSEmu
