import SweepDSEmu.Kernel.IPCHandles

/-!
# Accesses to the command buffer

Three loops go over the descriptors of a message, and each of them should stay within the words of the message.  Only
the descriptors of handles compare the number of their parameters with what is left; the descriptors that take one
parameter do not.

The three loops are instances of one `DescriptorLoop`, which lists the accesses turn by turn.  `trace_inside_iff` says
what goes wrong: the loop comes to the last word of the message and finds a descriptor there that takes a parameter.
-/

namespace SweepDSEmu

open IPC

namespace IPC

inductive AccessKind where
  | read
  | write
  deriving DecidableEq

/-- An access to a word of a command buffer. -/
structure Access where
  kind : AccessKind
  index : Nat
  deriving DecidableEq

def access (kinds : List AccessKind) (i : Nat) : List Access := kinds.map fun kind => ⟨kind, i⟩

def Inside (size : Nat) (accesses : List Access) : Prop := ∀ a ∈ accesses, a.index < size

instance (size : Nat) (accesses : List Access) : Decidable (Inside size accesses) :=
  inferInstanceAs (Decidable (∀ a ∈ accesses, a.index < size))

/-- Accesses to each of the words from `i` on. -/
def accessEach (kinds : List AccessKind) : Nat → Nat → List Access
  | 0, _ => []
  | n + 1, i => access kinds i ++ accessEach kinds n (i + 1)

theorem index_of_mem_access {kinds : List AccessKind} {i : Nat} {a : Access} (h : a ∈ access kinds i) :
    a.index = i := by
  obtain ⟨kind, -, rfl⟩ := List.mem_map.mp h
  rfl

theorem index_lt_of_mem_accessEach {kinds : List AccessKind} {n i : Nat} {a : Access}
    (h : a ∈ accessEach kinds n i) : a.index < i + n := by
  induction n generalizing i with
  | zero => cases h
  | succ n ih =>
    rcases List.mem_append.mp h with h | h
    · rw [index_of_mem_access h]
      omega
    · have hrest := ih h
      omega

def IsHandle : DescriptorType → Bool
  | .copyHandle | .moveHandle => true
  | _ => false

structure DescriptorLoop (S : Type) where
  /-- The word that a turn takes as its descriptor. -/
  descriptor : S → Nat → UInt32
  /-- The descriptors that are followed by one word, whether there is one or not. -/
  takesWord : DescriptorType → Bool
  /-- The accesses to the descriptor. -/
  head : List AccessKind
  /-- The accesses to the word behind a descriptor that is not one of handles. -/
  word : UInt32 → List AccessKind
  turn : S → Nat → Except Fault S

namespace DescriptorLoop

variable {S : Type} (L : DescriptorLoop S) (size : Nat)

def numParams (descriptor : UInt32) : Nat :=
  if IsHandle (getDescriptorType descriptor) then handleNumberFromDesc descriptor
  else if L.takesWord (getDescriptorType descriptor) then 1 else 0

def params (descriptor : UInt32) (i : Nat) : List Access :=
  if IsHandle (getDescriptorType descriptor) then
    accessEach [.read, .write] (handleNumberFromDesc descriptor) (i + 1)
  else access (L.word descriptor) (i + 1)

def TooLarge (i : Nat) (descriptor : UInt32) : Prop :=
  IsHandle (getDescriptorType descriptor) = true ∧ i + 1 + handleNumberFromDesc descriptor > size

instance (i : Nat) (descriptor : UInt32) : Decidable (TooLarge size i descriptor) := inferInstanceAs (Decidable (_ ∧ _))

def trace : Nat → Nat → S → List Access
  | 0, _, _ => []
  | fuel + 1, i, s =>
    if i < size then
      let descriptor := L.descriptor s i
      if TooLarge size i descriptor then access L.head i
      else access L.head i ++ L.params descriptor i ++
        match L.turn s i with
        | .ok s' => trace fuel (i + 1 + L.numParams descriptor) s'
        | .error _ => []
    else []

/-- The loop gets from one position to another. -/
inductive Arrives : Nat → S → Nat → S → Prop where
  | refl (i : Nat) (s : S) : Arrives i s i s
  | turn {i j : Nat} {s s' s'' : S} : i < size → ¬ TooLarge size i (L.descriptor s i) → L.turn s i = .ok s' →
    Arrives (i + 1 + L.numParams (L.descriptor s i)) s' j s'' → Arrives i s j s''

def EndsShort (i : Nat) (s : S) : Prop :=
  ∃ s', L.Arrives size i s (size - 1) s' ∧ L.takesWord (getDescriptorType (L.descriptor s' (size - 1))) = true

structure Lawful : Prop where
  takesWord : ∀ d, IsHandle d = true → L.takesWord d = false
  word : ∀ d, IsHandle (getDescriptorType d) = false → (L.word d ≠ [] ↔ L.takesWord (getDescriptorType d) = true)

variable {L size}

theorem Arrives.le {i j : Nat} {s s' : S} (h : L.Arrives size i s j s') : i ≤ j := by
  induction h with
  | refl i s => exact le_rfl
  | turn _ _ _ _ ih => omega

theorem inside_append {l l' : List Access} : Inside size (l ++ l') ↔ Inside size l ∧ Inside size l' :=
  List.forall_mem_append

private theorem params_inside_iff (hL : L.Lawful) {i : Nat} {d : UInt32} (hi : i < size)
    (hfit : ¬ TooLarge size i d) :
    Inside size (L.params d i) ↔ ¬ (i = size - 1 ∧ L.takesWord (getDescriptorType d) = true) := by
  unfold params
  by_cases hhandle : IsHandle (getDescriptorType d) = true
  · have hle : ¬ i + 1 + handleNumberFromDesc d > size := fun h => hfit ⟨hhandle, h⟩
    rw [if_pos hhandle, hL.takesWord _ hhandle]
    refine ⟨fun _ => by simp, fun _ a ha => ?_⟩
    have hlt := index_lt_of_mem_accessEach ha
    omega
  · rw [if_neg hhandle, ← hL.word d (by simpa using hhandle)]
    constructor
    · rintro hin ⟨rfl, hword⟩
      obtain ⟨kind, hkind⟩ := List.exists_mem_of_ne_nil _ hword
      have hlt := hin ⟨kind, size - 1 + 1⟩ (List.mem_map.mpr ⟨kind, hkind, rfl⟩)
      dsimp only at hlt
      omega
    · intro hno a ha
      obtain ⟨kind, hkind, rfl⟩ := List.mem_map.mp ha
      have hne : i ≠ size - 1 := fun h => hno ⟨h, List.ne_nil_of_mem hkind⟩
      dsimp only
      omega

/-- The accesses of the loop stay inside the message unless it ends with a descriptor that takes a word. -/
theorem trace_inside_iff (hL : L.Lawful) {fuel i : Nat} {s : S} (hsize : 0 < size) (hfuel : size ≤ i + fuel) :
    Inside size (L.trace size fuel i s) ↔ ¬ L.EndsShort size i s := by
  have hbeyond : ∀ i s, size ≤ i → ¬ L.EndsShort size i s := by
    rintro i s hi ⟨s', harrives, -⟩
    have hle := harrives.le
    omega
  induction fuel generalizing i s with
  | zero =>
    have hshort := hbeyond i s (by omega)
    simp [trace, Inside, hshort]
  | succ fuel ih =>
    unfold trace
    by_cases hi : i < size
    · have hhead : Inside size (access L.head i) := by
        intro a ha
        rw [index_of_mem_access ha]
        exact hi
      rw [if_pos hi]
      by_cases hlarge : TooLarge size i (L.descriptor s i)
      · rw [if_pos hlarge]
        refine ⟨fun _ => ?_, fun _ => hhead⟩
        rintro ⟨s', harrives, hword⟩
        cases harrives with
        | refl => rw [hL.takesWord _ hlarge.1] at hword; cases hword
        | turn _ hfit => exact hfit hlarge
      · rw [if_neg hlarge, inside_append, inside_append, params_inside_iff hL hi hlarge]
        -- the loop ends short here, or after this turn
        have hshort : L.EndsShort size i s ↔
            (i = size - 1 ∧ L.takesWord (getDescriptorType (L.descriptor s i)) = true) ∨
            ∃ s', L.turn s i = .ok s' ∧ L.EndsShort size (i + 1 + L.numParams (L.descriptor s i)) s' := by
          constructor
          · rintro ⟨s', harrives, hword⟩
            cases harrives with
            | refl => exact .inl ⟨rfl, hword⟩
            | turn _ _ hturn hrest => exact .inr ⟨_, hturn, s', hrest, hword⟩
          · rintro (⟨rfl, hword⟩ | ⟨s₁, hturn, s', hrest, hword⟩)
            · exact ⟨s, .refl _ s, hword⟩
            · exact ⟨s', .turn hi hlarge hturn hrest, hword⟩
        rw [hshort, not_or]
        cases hturn : L.turn s i with
        | error e =>
          have hnil : Inside size [] := List.forall_mem_nil _
          simp [hhead, hnil]
        | ok s' =>
          have hrest := ih (i := i + 1 + L.numParams (L.descriptor s i)) (s := s') (by omega)
          simp [hhead, hrest]
    · rw [if_neg hi]
      have hshort := hbeyond i s (by omega)
      simp [Inside, hshort]

end DescriptorLoop

end IPC

namespace Translation

variable {Obj M Pid : Type} (args : TranslateArgs Obj M Pid)

def takesWord : DescriptorType → Bool
  | .callingPid | .staticBuffer | .mappedBuffer => true
  | _ => false

def descriptorTurn (t : Translation Obj M) (i : Nat) : Except Fault (Translation Obj M) :=
  let descriptor := t.cmdBuf i
  match getDescriptorType descriptor with
  | .copyHandle | .moveHandle => translateHandles args descriptor (handleNumberFromDesc descriptor) (i + 1) t
  | .callingPid => translateCallingPid args (i + 1) t
  | .staticBuffer => translateStaticBuffer args descriptor (i + 1) t
  | .mappedBuffer => translateMappedBuffer args descriptor (i + 1) t
  | .pxiBuffer | .unnamed => .ok t

def wordAccesses (descriptor : UInt32) : List AccessKind :=
  match getDescriptorType descriptor with
  | .callingPid => [.write]
  | .staticBuffer => [.read, .write]
  | .mappedBuffer => if args.reply ∧ mappedBufferSize descriptor ≠ 0 then [.read] else [.read, .write]
  | _ => []

def descriptorLoop : DescriptorLoop (Translation Obj M) where
  descriptor t i := t.cmdBuf i
  takesWord := takesWord
  head := [.read]
  word := wordAccesses args
  turn := descriptorTurn args

theorem descriptorLoop_lawful : (descriptorLoop args).Lawful := by
  constructor
  · intro d hd
    cases d <;> first | rfl | cases hd
  · intro d _
    simp only [descriptorLoop, wordAccesses]
    cases getDescriptorType d with
    | mappedBuffer =>
      simp only [takesWord]
      split_ifs
      · simp
      · simp
    | _ => simp [takesWord]

theorem descriptorTurn_keeps {t t' : Translation Obj M} {i : Nat} (h : descriptorTurn args t i = .ok t') :
    ∀ j, i + 1 + (descriptorLoop args).numParams (t.cmdBuf i) ≤ j → t'.cmdBuf j = t.cmdBuf j := by
  intro j hj
  obtain ⟨type, htype⟩ : ∃ type, getDescriptorType (t.cmdBuf i) = type := ⟨_, rfl⟩
  simp only [DescriptorLoop.numParams, descriptorTurn, descriptorLoop, htype] at h hj
  cases type with
  | copyHandle =>
    obtain ⟨_, _, _, hkeep⟩ := translateHandles_turns h
    exact hkeep j (.inr (by simpa [IsHandle] using hj))
  | moveHandle =>
    obtain ⟨_, _, _, hkeep⟩ := translateHandles_turns h
    exact hkeep j (.inr (by simpa [IsHandle] using hj))
  | callingPid => exact (translateCallingPid_skips h).2 j (by simp [IsHandle, takesWord] at hj; omega)
  | staticBuffer => exact (translateStaticBuffer_skips h).2 j (by simp [IsHandle, takesWord] at hj; omega)
  | mappedBuffer => exact (translateMappedBuffer_skips h).2 j (by simp [IsHandle, takesWord] at hj; omega)
  | pxiBuffer => cases h; rfl
  | unnamed => cases h; rfl

theorem arrives_keeps {size i j : Nat} {t t' : Translation Obj M}
    (h : (descriptorLoop args).Arrives size i t j t') : ∀ k, j ≤ k → t'.cmdBuf k = t.cmdBuf k := by
  induction h with
  | refl i t => exact fun _ _ => rfl
  | turn _ _ hturn hrest ih =>
    intro k hk
    have hle := hrest.le
    rw [ih k hk, descriptorTurn_keeps args hturn k (hle.trans hk)]

/-- The accesses of `TranslateCommandBuffer` to its copy of the message. -/
def commandBufferAccesses (t : Translation Obj M) : List Access :=
  let size := commandSize t.cmdBuf
  accessEach [.write] size 0 ++ (descriptorLoop args).trace size size (untranslatedSize t.cmdBuf) t ++
    match translateLoop args size size (untranslatedSize t.cmdBuf) t with
    | .ok (.success, _) => accessEach [.read] size 0
    | _ => []

end Translation

namespace RequestContext

variable {Obj M Pid : Type} (args : PopulateArgs Obj M Pid)

def descriptorTurn (c : RequestContext Obj) (i : Nat) : Except Fault (RequestContext Obj) := do
  let descriptor := args.srcCmdbuf i
  let c ← c.putWord i descriptor
  match getDescriptorType descriptor with
  | .copyHandle | .moveHandle => populateHandles args descriptor (handleNumberFromDesc descriptor) (i + 1) c
  | .callingPid => c.putWord (i + 1) args.processId
  | .staticBuffer => populateStaticBuffer args descriptor (i + 1) c
  | .mappedBuffer => populateMappedBuffer args descriptor (i + 1) c
  | .pxiBuffer | .unnamed => .ok c

def wordAccesses (descriptor : UInt32) : List AccessKind :=
  match getDescriptorType descriptor with
  | .callingPid => [.write]
  | .staticBuffer | .mappedBuffer => [.read, .write]
  | _ => []

def descriptorLoop : DescriptorLoop (RequestContext Obj) where
  descriptor _ i := args.srcCmdbuf i
  takesWord := Translation.takesWord
  head := [.read, .write]
  word := wordAccesses
  turn := descriptorTurn args

theorem descriptorLoop_lawful : (descriptorLoop args).Lawful := by
  constructor
  · intro d hd
    cases d <;> first | rfl | cases hd
  · intro d _
    simp only [descriptorLoop, wordAccesses]
    cases getDescriptorType d <;> simp [Translation.takesWord]

/-- The words before the descriptors are copied. -/
def copyUntranslated (c : RequestContext Obj) : RequestContext Obj :=
  { c with cmdBuf := fun i => if i < untranslatedSize args.srcCmdbuf then args.srcCmdbuf i else c.cmdBuf i }

/-- The accesses of `PopulateFromIncomingCommandBuffer` to the message and to its copy. -/
def commandBufferAccesses (c : RequestContext Obj) : List Access :=
  let size := commandSize args.srcCmdbuf
  let untranslated := untranslatedSize args.srcCmdbuf
  accessEach [.read, .write] untranslated 0 ++
    (descriptorLoop args).trace size size untranslated (c.copyUntranslated args)

end RequestContext

namespace Outgoing

variable {Obj M Pid : Type} (args : WriteArgs Obj M Pid)

def takesWord : DescriptorType → Bool
  | .staticBuffer | .mappedBuffer => true
  | _ => false

def descriptorTurn (o : Outgoing Obj M) (i : Nat) : Except Fault (Outgoing Obj M) :=
  let descriptor := args.context.cmdBuf i
  let o := o.putWord i descriptor
  match getDescriptorType descriptor with
  | .copyHandle | .moveHandle => writeHandles args (handleNumberFromDesc descriptor) (i + 1) o
  | .staticBuffer => writeStaticBuffer args descriptor (i + 1) o
  | .mappedBuffer => writeMappedBuffer args (i + 1) o
  | .callingPid | .pxiBuffer | .unnamed => .ok o

def wordAccesses (descriptor : UInt32) : List AccessKind :=
  match getDescriptorType descriptor with
  | .staticBuffer => [.write]
  | .mappedBuffer => [.read, .write]
  | _ => []

def descriptorLoop : DescriptorLoop (Outgoing Obj M) where
  descriptor _ i := args.context.cmdBuf i
  takesWord := takesWord
  head := [.read, .write]
  word := wordAccesses
  turn := descriptorTurn args

theorem descriptorLoop_lawful : (descriptorLoop args).Lawful := by
  constructor
  · intro d hd
    cases d <;> first | rfl | cases hd
  · intro d _
    simp only [descriptorLoop, wordAccesses]
    cases getDescriptorType d <;> simp [takesWord]

/-- The words before the descriptors are copied. -/
def copyUntranslated (o : Outgoing Obj M) : Outgoing Obj M :=
  { o with dstCmdbuf := fun i => if i < untranslatedSize args.context.cmdBuf then args.context.cmdBuf i
    else o.dstCmdbuf i }

/-- The accesses of `WriteToOutgoingCommandBuffer` to the reply and to the words of the client. -/
def commandBufferAccesses (o : Outgoing Obj M) : List Access :=
  let size := commandSize args.context.cmdBuf
  let untranslated := untranslatedSize args.context.cmdBuf
  accessEach [.read, .write] untranslated 0 ++
    (descriptorLoop args).trace size size untranslated (o.copyUntranslated args)

end Outgoing

namespace IPC

structure StaysInside (cmdBuf : CmdBuf) (accesses : List Access) : Prop where
  message : Inside (commandSize cmdBuf) accesses
  buffer : Inside commandBufferLength accesses

private theorem staysInside_iff {cmdBuf : CmdBuf} {accesses : List Access}
    (h : commandSize cmdBuf ≤ commandBufferLength) :
    StaysInside cmdBuf accesses ↔ Inside (commandSize cmdBuf) accesses :=
  ⟨StaysInside.message, fun hin => ⟨hin, fun a ha => (hin a ha).trans_le h⟩⟩

private theorem accessEach_inside {kinds : List AccessKind} {n size : Nat} (h : n ≤ size) :
    Inside size (accessEach kinds n 0) := by
  intro a ha
  have hlt := index_lt_of_mem_accessEach ha
  omega

private theorem not_endsShort_iff {S : Type} {L : DescriptorLoop S} {size i : Nat} {s : S} {word : UInt32}
    (hword : ∀ s', L.Arrives size i s (size - 1) s' → L.descriptor s' (size - 1) = word) :
    ¬ L.EndsShort size i s ↔
      ∀ s', L.Arrives size i s (size - 1) s' → L.takesWord (getDescriptorType word) = false := by
  constructor
  · intro hno s' harrives
    rw [← Bool.not_eq_true]
    intro htakes
    exact hno ⟨s', harrives, by rwa [hword s' harrives]⟩
  · rintro hall ⟨s', harrives, htakes⟩
    rw [hword s' harrives, hall s' harrives] at htakes
    cases htakes

def lastWord (descriptor : UInt32) : CmdBuf
  | 0 => 0x00000F81
  | 63 => descriptor
  | _ => 0

def noDescriptors : CmdBuf := fun _ => 0

end IPC

namespace Outgoing

variable {Obj M Pid : Type} {args : WriteArgs Obj M Pid} {o o' : Outgoing Obj M}

private theorem writeHandles_keeps {n i : Nat} (h : writeHandles args n i o = .ok o') {j : Nat}
    (hj : j < i ∨ i + n ≤ j) : o'.dstCmdbuf j = o.dstCmdbuf j := by
  induction n generalizing i o with
  | zero => cases h; rfl
  | succ n ih =>
    obtain ⟨o₁, hturn, hrest⟩ := ok_of_bind h
    rw [ih hrest (by omega)]
    have hne : j ≠ i := by omega
    obtain ⟨object, -, hturn⟩ := ok_of_bind hturn
    cases object with
    | none => cases hturn; exact Function.update_of_ne hne ..
    | some object =>
      dsimp only at hturn
      split at hturn
      · cases hturn
        exact Function.update_of_ne hne ..
      · cases hturn

/-- A turn copies its descriptor, and changes no other words than those behind it that it takes. -/
private theorem descriptorTurn_keeps {i : Nat} (h : descriptorTurn args o i = .ok o') :
    o'.dstCmdbuf i = args.context.cmdBuf i ∧
      ∀ j, j < i ∨ i + 1 + (descriptorLoop args).numParams (args.context.cmdBuf i) ≤ j → o'.dstCmdbuf j = o.dstCmdbuf j := by
  suffices hput : ∀ j, j ≤ i ∨ i + 1 + (descriptorLoop args).numParams (args.context.cmdBuf i) ≤ j →
      o'.dstCmdbuf j = (o.putWord i (args.context.cmdBuf i)).dstCmdbuf j by
    refine ⟨(hput i (.inl le_rfl)).trans (Function.update_self ..), fun j hj => ?_⟩
    rw [hput j (by omega)]
    exact Function.update_of_ne (by omega) ..
  intro j hj
  obtain ⟨type, htype⟩ : ∃ type, getDescriptorType (args.context.cmdBuf i) = type := ⟨_, rfl⟩
  simp only [DescriptorLoop.numParams, descriptorTurn, descriptorLoop, htype, IsHandle, takesWord] at h hj
  cases type with
  | copyHandle | moveHandle => exact writeHandles_keeps h (by simpa [Nat.lt_succ_iff] using hj)
  | staticBuffer =>
    obtain ⟨⟨⟩, -, h⟩ := ok_of_bind h
    cases h
    exact Function.update_of_ne (by simp at hj; omega) ..
  | mappedBuffer =>
    obtain ⟨⟨⟩, -, h⟩ := ok_of_bind h
    obtain ⟨buffer, -, h⟩ := ok_of_bind h
    cases h
    exact Function.update_of_ne (by simp at hj; omega) ..
  | _ => cases h; rfl

private theorem writeLoop_succ {size fuel i : Nat} (hi : i < size) (h : writeLoop args size (fuel + 1) i o = .ok o') :
    i + (descriptorLoop args).numParams (args.context.cmdBuf i) ≤ size ∧ ∃ o₁, descriptorTurn args o i = .ok o₁ ∧
      writeLoop args size fuel (i + 1 + (descriptorLoop args).numParams (args.context.cmdBuf i)) o₁ = .ok o' := by
  rw [writeLoop, if_pos hi] at h
  obtain ⟨type, htype⟩ : ∃ type, getDescriptorType (args.context.cmdBuf i) = type := ⟨_, rfl⟩
  simp only [DescriptorLoop.numParams, descriptorTurn, descriptorLoop, htype, IsHandle, takesWord] at h ⊢
  have hhandles {n : Nat} {x : Except Fault (Outgoing Obj M)} (h : (do assert (i + 1 + n ≤ size); x) = .ok o') :
      i + n ≤ size ∧ x = .ok o' := by
    unfold assert at h
    split at h
    · exact ⟨by omega, h⟩
    · cases h
  cases type with
  | copyHandle | moveHandle => exact (hhandles h).imp id ok_of_bind
  | staticBuffer | mappedBuffer => exact ⟨hi, ok_of_bind h⟩
  | _ => exact ⟨hi.le, _, rfl, h⟩

private theorem writeLoop_keeps {size fuel i : Nat} (hfuel : size ≤ i + fuel)
    (h : writeLoop args size fuel i o = .ok o') : (∀ j, j < i ∨ size < j → o'.dstCmdbuf j = o.dstCmdbuf j) ∧
      ∀ j s, j < size → (descriptorLoop args).Arrives size i o j s → o'.dstCmdbuf j = args.context.cmdBuf j := by
  induction fuel generalizing i o with
  | zero =>
    cases h
    exact ⟨fun _ _ => rfl, fun j s hj harrives => absurd harrives.le (by omega)⟩
  | succ fuel ih =>
    by_cases hi : i < size
    · obtain ⟨hfit, o₁, hturn, hrest⟩ := writeLoop_succ hi h
      obtain ⟨hself, hkeeps⟩ := descriptorTurn_keeps hturn
      obtain ⟨hothers, hlater⟩ := ih (by omega) hrest
      refine ⟨fun j hj => ?_, fun j s hj harrives => ?_⟩
      · rw [hothers j (by omega), hkeeps j (by omega)]
      · cases harrives with
        | refl => rw [hothers i (by omega), hself]
        | turn _ _ hturn' hrest' =>
          cases hturn.symm.trans hturn'
          exact hlater j s hj hrest'
    · rw [writeLoop, if_neg hi] at h
      cases h
      exact ⟨fun _ _ => rfl, fun j s hj harrives => absurd harrives.le (by omega)⟩

end Outgoing

end SweepDSEmu
