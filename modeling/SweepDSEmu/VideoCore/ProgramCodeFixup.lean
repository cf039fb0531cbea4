import SweepDSEmu.VideoCore.PicaRegisters

/-!
# The program code of a shader and its fixup

The program of a shader unit is uploaded word by word or whole.  Before a draw `DoProgramCodeFixup` may make a patched
copy of it, which `GetProgramCode` returns from then on, until an upload resets it.  Three flags tell whether the hash
has to be computed again, whether the program was looked at since the last upload, and whether there is a copy.

* The hash function is a parameter; its arguments are the words of the program.
-/

namespace SweepDSEmu.VideoCore

namespace Pica

abbrev ProgramCode := Table (BitVec 32) 4096

structure FixupSetup (V : Type) extends ShaderSetup V where
  requiresFixup : Bool
  programCodeFixup : ProgramCode
  programCodeHash : BitVec 64
  swizzleDataHash : BitVec 64

abbrev Hash := List (BitVec 32) → BitVec 64

variable {V : Type}

namespace FixupSetup

def getProgramCode (s : FixupSetup V) : ProgramCode := if s.hasFixup then s.programCodeFixup else s.programCode

/-- The words that `GetProgramCodeHash` hashes. -/
def hashedCode (s : FixupSetup V) : List (BitVec 32) := (List.ofFn s.getProgramCode).take s.biggestProgramSize

def getProgramCodeHash (hash : Hash) (s : FixupSetup V) : BitVec 64 × FixupSetup V :=
  if s.programCodeHashDirty then
    (hash s.hashedCode, { s with programCodeHash := hash s.hashedCode, programCodeHashDirty := false })
  else (s.programCodeHash, s)

def getSwizzleDataHash (hash : Hash) (s : FixupSetup V) : BitVec 64 × FixupSetup V :=
  if s.swizzleDataHashDirty then
    let swizzleDataHash := hash ((List.ofFn s.swizzleData).take s.biggestSwizzleSize)
    (swizzleDataHash, { s with swizzleDataHash := swizzleDataHash, swizzleDataHashDirty := false })
  else (s.swizzleDataHash, s)

def updateWholeProgram (s : FixupSetup V) (other : ProgramCode) (otherSize : Nat) : FixupSetup V :=
  { s with
    programCode := other
    biggestProgramSize := max s.biggestProgramSize otherSize
    programCodeHashDirty := true
    programCodePendingFixup := true
    hasFixup := false }

def updateWholeSwizzle (s : FixupSetup V) (other : Table (BitVec 32) 4096) (otherSize : Nat) : FixupSetup V :=
  { s with
    swizzleData := other
    biggestSwizzleSize := max s.biggestSwizzleSize otherSize
    swizzleDataHashDirty := true }

/-- `prepare_for_fixup`.  As many bytes are copied as the program has words. -/
def prepareForFixup (s : FixupSetup V) : FixupSetup V :=
  { s with
    programCodeFixup := fun i => if i.val < 4096 / 4 then s.programCode i else s.programCodeFixup i
    hasFixup := true
    programCodeHashDirty := true }

/-- `fix_3d_classics_common`: room for one instruction is made in front of seven, and the end is marked. -/
def fix3dClassicsCommon (offsetBase : Nat) (movSwizzle : BitVec 32) (s : FixupSetup V) : FixupSetup V :=
  let offsetBase := offsetBase / 4
  let moved : ProgramCode := fun i =>
    if offsetBase + 1 ≤ i.val ∧ i.val < offsetBase + 1 + 0x1c / 4 then s.programCodeFixup (i - 1)
    else s.programCodeFixup i
  let programCodeFixup : ProgramCode := fun i =>
    if i.val = offsetBase + 0x20 then 0x88000000
    else if i.val = offsetBase then 0x4c000000 ||| movSwizzle
    else moved i
  { s with
    programCodeFixup := programCodeFixup
    biggestProgramSize :=
      if s.biggestProgramSize ≤ offsetBase + 0x20 then offsetBase + 0x20 + 1 else s.biggestProgramSize }

def thunderBlade : BitVec 64 := 0x0797513756f2c8c9
def afterBurner : BitVec 64 := 0x188e959fbe31324d
def collectionTb : BitVec 64 := 0x5954c8e4d13cdd86
def collectionPd : BitVec 64 := 0x27496993b307355b

def selectFixup (codeHash : BitVec 64) (s : FixupSetup V) : FixupSetup V :=
  if codeHash = thunderBlade then s.prepareForFixup.fix3dClassicsCommon 0x510 0xa
  else if codeHash = afterBurner then s.prepareForFixup.fix3dClassicsCommon 0x50c 0xa
  else if codeHash = collectionTb then s.prepareForFixup.fix3dClassicsCommon 0xae0 0xc
  else if codeHash = collectionPd then s.prepareForFixup.fix3dClassicsCommon 0xaf0 0xc
  else s

def doProgramCodeFixup (hash : Hash) (s : FixupSetup V) : FixupSetup V :=
  if !s.requiresFixup || !s.programCodePendingFixup then s
  else
    let (codeHash, s) := getProgramCodeHash hash { s with programCodePendingFixup := false }
    selectFixup codeHash s

def lift (s : FixupSetup V) (f : ShaderSetup V → Except Fault (ShaderSetup V)) : Except Fault (FixupSetup V) := do
  let t ← f s.toShaderSetup
  return { s with toShaderSetup := t }

end FixupSetup

inductive SetupOp where
  | updateProgramCode (offset : Nat) (value : BitVec 32)
  | updateWholeProgram (other : ProgramCode) (otherSize : Nat)
  | doProgramCodeFixup
  | getProgramCodeHash
  | updateSwizzleData (offset : Nat) (value : BitVec 32)
  | updateWholeSwizzle (other : Table (BitVec 32) 4096) (otherSize : Nat)
  | getSwizzleDataHash
  | writeUniformBoolReg (value : BitVec 32)
  | writeUniformIntReg (index : Nat) (values : BitVec 32)
  | writeUniformFloatReg (setup value : BitVec 32)
  | setRequiresFixup (requiresFixup : Bool)

namespace SetupOp

def uploads : SetupOp → Fin 4096 → Option (BitVec 32)
  | updateProgramCode offset value, i => if offset = i.val then some value else none
  | updateWholeProgram other _, i => some (other i)
  | _, _ => none

end SetupOp

namespace FixupSetup

def step (host : Host V) (hash : Hash) (s : FixupSetup V) : SetupOp → Except Fault (FixupSetup V)
  | .updateProgramCode offset value => s.lift fun t => t.updateProgramCode offset value
  | .updateWholeProgram other otherSize => .ok (s.updateWholeProgram other otherSize)
  | .doProgramCodeFixup => .ok (s.doProgramCodeFixup hash)
  | .getProgramCodeHash => .ok (s.getProgramCodeHash hash).2
  | .updateSwizzleData offset value => s.lift fun t => t.updateSwizzleData offset value
  | .updateWholeSwizzle other otherSize => .ok (s.updateWholeSwizzle other otherSize)
  | .getSwizzleDataHash => .ok (s.getSwizzleDataHash hash).2
  | .writeUniformBoolReg value => s.lift fun t => t.writeUniformBoolReg value
  | .writeUniformIntReg index values => s.lift fun t => t.writeUniformIntReg index values
  | .writeUniformFloatReg setup value =>
    s.lift fun t => (t.writeUniformFloatReg host setup value).map fun r => r.2.2
  | .setRequiresFixup requiresFixup => .ok { s with requiresFixup := requiresFixup }

def run (host : Host V) (hash : Hash) (s : FixupSetup V) (ops : List SetupOp) : Except Fault (FixupSetup V) :=
  ops.foldlM (step host hash) s

end FixupSetup

structure SameProgram (t t' : ShaderSetup V) : Prop where
  programCode : t'.programCode = t.programCode
  programCodeHashDirty : t'.programCodeHashDirty = t.programCodeHashDirty
  hasFixup : t'.hasFixup = t.hasFixup
  biggestProgramSize : t'.biggestProgramSize = t.biggestProgramSize

namespace SameProgram

variable {t t' t'' : ShaderSetup V}

theorem refl : SameProgram t t := ⟨rfl, rfl, rfl, rfl⟩

theorem trans (h : SameProgram t t') (h' : SameProgram t' t'') : SameProgram t t'' :=
  ⟨h'.programCode.trans h.programCode, h'.programCodeHashDirty.trans h.programCodeHashDirty,
    h'.hasFixup.trans h.hasFixup, h'.biggestProgramSize.trans h.biggestProgramSize⟩

end SameProgram

namespace ShaderSetup

variable {t t' : ShaderSetup V}

theorem writeUniformBoolReg_program {value : BitVec 32} (h : t.writeUniformBoolReg value = .ok t') :
    SameProgram t t' := by
  have hloop : Returns (SameProgram t) (t.writeUniformBoolReg value) := by
    refine Outcome.foldlM SameProgram.refl ?_
    intro t₁ i _ hsame
    refine Outcome.bind (P := fun _ => True) (Outcome.intro (by simp) (by simp)) ?_
    rintro ⟨prev, uniformsB⟩ _
    exact hsame.trans ⟨rfl, rfl, rfl, rfl⟩
  rw [h] at hloop
  exact hloop

theorem writeUniformIntReg_program {index : Nat} {values : BitVec 32} (h : t.writeUniformIntReg index values = .ok t') :
    SameProgram t t' := by
  unfold writeUniformIntReg at h
  split at h
  · obtain ⟨⟨prev, uniformsI⟩, -, h⟩ := ok_of_bind h
    cases h
    exact ⟨rfl, rfl, rfl, rfl⟩
  · cases h

theorem writeUniformFloatReg_program {host : Host V} {setup value : BitVec 32} {r : Option Nat × BitVec 32 × ShaderSetup V}
    (h : t.writeUniformFloatReg host setup value = .ok r) : SameProgram t r.2.2 := by
  obtain ⟨⟨full, queue⟩, -, h⟩ := ok_of_bind h
  dsimp only at h
  split at h
  · unfold writeUniformFloat at h
    dsimp only at h
    split at h
    · obtain ⟨⟨prev, uniformsF⟩, -, h⟩ := ok_of_bind h
      cases h
      exact ⟨rfl, rfl, rfl, rfl⟩
    · cases h
      exact ⟨rfl, rfl, rfl, rfl⟩
  · cases h
    exact ⟨rfl, rfl, rfl, rfl⟩

theorem updateSwizzleData_program {offset : Nat} {value : BitVec 32} (h : t.updateSwizzleData offset value = .ok t') :
    SameProgram t t' := by
  obtain ⟨⟨old, swizzleData⟩, -, h⟩ := ok_of_bind h
  dsimp only at h
  split at h
  · cases h
    exact .refl
  · cases h
    exact ⟨rfl, rfl, rfl, rfl⟩

theorem updateProgramCode_ok {offset : Nat} {value : BitVec 32} (h : t.updateProgramCode offset value = .ok t') :
    ∃ hlt : offset < 4096, if t.programCode ⟨offset, hlt⟩ = value then t' = t else
      t' = { t with
        programCode := Function.update t.programCode ⟨offset, hlt⟩ value
        programCodeHashDirty := true
        programCodePendingFixup := if t.programCodeHashDirty then t.programCodePendingFixup else true
        hasFixup := if t.programCodeHashDirty then t.hasFixup else false
        biggestProgramSize := max t.biggestProgramSize (offset + 1) } := by
  obtain ⟨⟨old, programCode⟩, hexchange, h⟩ := ok_of_bind h
  unfold exchangeAt at hexchange
  split at hexchange
  · rename_i hlt
    cases hexchange
    refine ⟨hlt, ?_⟩
    dsimp only at h
    split at h
    · rename_i heq
      rw [if_pos heq]
      exact (Except.ok.inj h).symm
    · rename_i hne
      rw [if_neg hne]
      exact (Except.ok.inj h).symm
  · cases hexchange

end ShaderSetup

namespace FixupSetup

variable {s s' : FixupSetup V} {host : Host V} {hash : Hash} {op : SetupOp} {i : Fin 4096} {value : BitVec 32}

structure Frame (s s' : FixupSetup V) (op : SetupOp) : Prop where
  program : SameProgram s.toShaderSetup s'.toShaderSetup
  programCodeFixup : s'.programCodeFixup = s.programCodeFixup
  programCodeHash : s'.programCodeHash = s.programCodeHash
  uploads : ∀ i, op.uploads i = none

private theorem lift_ok {f : ShaderSetup V → Except Fault (ShaderSetup V)} (h : s.lift f = .ok s') :
    ∃ t, f s.toShaderSetup = .ok t ∧ s' = { s with toShaderSetup := t } := by
  obtain ⟨t, ht, h⟩ := ok_of_bind h
  exact ⟨t, ht, (Except.ok.inj h).symm⟩

theorem step_cases (h : s.step host hash op = .ok s') :
    (∃ offset value t, op = .updateProgramCode offset value ∧ s.updateProgramCode offset value = .ok t ∧
      s' = { s with toShaderSetup := t }) ∨
    (∃ other otherSize, op = .updateWholeProgram other otherSize ∧ s' = s.updateWholeProgram other otherSize) ∨
    (op = .doProgramCodeFixup ∧ s' = s.doProgramCodeFixup hash) ∨
    (op = .getProgramCodeHash ∧ s' = (s.getProgramCodeHash hash).2) ∨
    Frame s s' op := by
  cases op with
  | updateProgramCode offset value =>
    simp only [step] at h
    obtain ⟨t, ht, hs'⟩ := lift_ok h
    exact .inl ⟨offset, value, t, rfl, ht, hs'⟩
  | updateWholeProgram other otherSize => exact .inr (.inl ⟨other, otherSize, rfl, (Except.ok.inj h).symm⟩)
  | doProgramCodeFixup => exact .inr (.inr (.inl ⟨rfl, (Except.ok.inj h).symm⟩))
  | getProgramCodeHash => exact .inr (.inr (.inr (.inl ⟨rfl, (Except.ok.inj h).symm⟩)))
  | updateSwizzleData offset value =>
    simp only [step] at h
    obtain ⟨t, ht, rfl⟩ := lift_ok h
    exact .inr (.inr (.inr (.inr ⟨ShaderSetup.updateSwizzleData_program ht, rfl, rfl, fun _ => rfl⟩)))
  | updateWholeSwizzle other otherSize =>
    cases h
    exact .inr (.inr (.inr (.inr ⟨⟨rfl, rfl, rfl, rfl⟩, rfl, rfl, fun _ => rfl⟩)))
  | getSwizzleDataHash =>
    cases h
    refine .inr (.inr (.inr (.inr ?_)))
    unfold getSwizzleDataHash
    split <;> exact ⟨⟨rfl, rfl, rfl, rfl⟩, rfl, rfl, fun _ => rfl⟩
  | writeUniformBoolReg value =>
    simp only [step] at h
    obtain ⟨t, ht, rfl⟩ := lift_ok h
    exact .inr (.inr (.inr (.inr ⟨ShaderSetup.writeUniformBoolReg_program ht, rfl, rfl, fun _ => rfl⟩)))
  | writeUniformIntReg index values =>
    simp only [step] at h
    obtain ⟨t, ht, rfl⟩ := lift_ok h
    exact .inr (.inr (.inr (.inr ⟨ShaderSetup.writeUniformIntReg_program ht, rfl, rfl, fun _ => rfl⟩)))
  | writeUniformFloatReg setup value =>
    simp only [step] at h
    obtain ⟨t, ht, rfl⟩ := lift_ok h
    refine .inr (.inr (.inr (.inr ⟨?_, rfl, rfl, fun _ => rfl⟩)))
    cases hr : s.writeUniformFloatReg host setup value with
    | error e => simp [hr, Except.map] at ht
    | ok r =>
      simp only [hr, Except.map, Except.ok.injEq] at ht
      rw [← ht]
      exact ShaderSetup.writeUniformFloatReg_program hr
  | setRequiresFixup requiresFixup =>
    cases h
    exact .inr (.inr (.inr (.inr ⟨⟨rfl, rfl, rfl, rfl⟩, rfl, rfl, fun _ => rfl⟩)))

/-- The word at a place of the program is also in the copy, if there is one. -/
structure Shows (s : FixupSetup V) (i : Fin 4096) (value : BitVec 32) : Prop where
  programCode : s.programCode i = value
  programCodeFixup : s.hasFixup = true → s.programCodeFixup i = value

theorem Shows.getProgramCode (h : s.Shows i value) : s.getProgramCode i = value := by
  unfold FixupSetup.getProgramCode
  split
  · exact h.programCodeFixup ‹_›
  · exact h.programCode

/-- What an upload of one word needs: there is no copy that it does not reset, or the copy has the word. -/
def Resets (s : FixupSetup V) : SetupOp → Prop
  | .updateProgramCode offset value => ∀ h : offset < 4096, s.programCode ⟨offset, h⟩ ≠ value → s.hasFixup = true →
      s.programCodeHashDirty = true → s.programCodeFixup ⟨offset, h⟩ = value
  | _ => True

/-- What is shown stays until the next fixup or the next upload to its place. -/
theorem Shows.step (h : s.Shows i value) (hstep : s.step host hash op = .ok s') (hfixup : op ≠ .doProgramCodeFixup)
    (huploads : op.uploads i = none) : s'.Shows i value := by
  rcases step_cases hstep with ⟨offset, word, t, rfl, ht, rfl⟩ | ⟨other, otherSize, rfl, rfl⟩ | ⟨rfl, rfl⟩ | ⟨rfl, rfl⟩ |
    hframe
  · obtain ⟨hlt, ht⟩ := ShaderSetup.updateProgramCode_ok ht
    have hne : i ≠ ⟨offset, hlt⟩ := by
      rintro rfl
      simp [SetupOp.uploads] at huploads
    split at ht
    · subst ht
      exact h
    · subst ht
      constructor
      · exact (Function.update_of_ne hne _ _).trans h.programCode
      · intro hhas
        split at hhas
        · exact h.programCodeFixup hhas
        · cases hhas
  · cases huploads
  · exact absurd rfl hfixup
  · unfold FixupSetup.getProgramCodeHash
    split
    · exact ⟨h.programCode, h.programCodeFixup⟩
    · exact h
  · constructor
    · rw [hframe.program.programCode]
      exact h.programCode
    · rw [hframe.program.hasFixup, hframe.programCodeFixup]
      exact h.programCodeFixup

theorem shows_of_uploads (hstep : s.step host hash op = .ok s') (huploads : op.uploads i = some value)
    (hchange : s.programCode i ≠ value) (hresets : s.Resets op) : s'.Shows i value := by
  rcases step_cases hstep with ⟨offset, word, t, rfl, ht, rfl⟩ | ⟨other, otherSize, rfl, rfl⟩ | ⟨rfl, rfl⟩ | ⟨rfl, rfl⟩ |
    hframe
  · obtain ⟨hlt, ht⟩ := ShaderSetup.updateProgramCode_ok ht
    simp only [SetupOp.uploads, Option.ite_none_right_eq_some, Option.some.injEq] at huploads
    obtain ⟨rfl, rfl⟩ := huploads
    rw [if_neg hchange] at ht
    subst ht
    constructor
    · exact Function.update_self ..
    · intro hhas
      split at hhas
      · exact hresets hlt hchange hhas ‹_›
      · cases hhas
  · simp only [SetupOp.uploads, Option.some.injEq] at huploads
    exact ⟨huploads, fun h => nomatch h⟩
  · cases huploads
  · cases huploads
  · rw [hframe.uploads] at huploads
    cases huploads

theorem masked_of_not_resets (hstep : s.step host hash op = .ok s') (hresets : ¬ s.Resets op) :
    ∃ i value, op.uploads i = some value ∧ s.programCode i ≠ value ∧ s'.getProgramCode i ≠ value := by
  rcases step_cases hstep with ⟨offset, word, t, rfl, ht, rfl⟩ | ⟨other, otherSize, rfl, rfl⟩ | ⟨rfl, rfl⟩ | ⟨rfl, rfl⟩ |
    hframe
  · obtain ⟨hlt, ht⟩ := ShaderSetup.updateProgramCode_ok ht
    simp only [Resets, not_forall] at hresets
    obtain ⟨_, hchange, hhas, hdirty, hmasked⟩ := hresets
    refine ⟨⟨offset, hlt⟩, word, if_pos rfl, hchange, ?_⟩
    rw [if_neg hchange] at ht
    subst ht
    simpa [FixupSetup.getProgramCode, hhas, hdirty] using hmasked
  · exact absurd trivial hresets
  · exact absurd trivial hresets
  · exact absurd trivial hresets
  · cases op with
    | updateProgramCode offset word =>
      simp only [Resets, not_forall] at hresets
      obtain ⟨hlt, -⟩ := hresets
      have hnone := hframe.uploads ⟨offset, hlt⟩
      simp [SetupOp.uploads] at hnone
    | _ => exact absurd trivial hresets

def HashValid (hash : Hash) (s : FixupSetup V) : Prop :=
  s.programCodeHashDirty = false → s.programCodeHash = hash s.hashedCode

theorem HashValid.getProgramCodeHash (h : s.HashValid hash) :
    (s.getProgramCodeHash hash).1 = hash s.hashedCode ∧ (s.getProgramCodeHash hash).2.HashValid hash := by
  unfold FixupSetup.getProgramCodeHash
  split
  · exact ⟨rfl, fun _ => rfl⟩
  · rename_i hdirty
    rw [Bool.not_eq_true] at hdirty
    exact ⟨h hdirty, h⟩

private theorem hashValid_of_dirty (h : s.programCodeHashDirty = true) : s.HashValid hash := by
  intro hdirty
  rw [h] at hdirty
  cases hdirty

theorem HashValid.doProgramCodeFixup (h : s.HashValid hash) : (s.doProgramCodeFixup hash).HashValid hash := by
  unfold FixupSetup.doProgramCodeFixup
  split
  · exact h
  · have hpending : HashValid hash { s with programCodePendingFixup := false } := h
    have hvalid := hpending.getProgramCodeHash.2
    dsimp only
    unfold selectFixup
    split_ifs
    · exact hashValid_of_dirty rfl
    · exact hashValid_of_dirty rfl
    · exact hashValid_of_dirty rfl
    · exact hashValid_of_dirty rfl
    · exact hvalid

/-- Every operation that changes the program, its copy or its size makes the hash dirty. -/
theorem HashValid.step (h : s.HashValid hash) (hstep : s.step host hash op = .ok s') : s'.HashValid hash := by
  rcases step_cases hstep with ⟨offset, word, t, rfl, ht, rfl⟩ | ⟨other, otherSize, rfl, rfl⟩ | ⟨rfl, rfl⟩ | ⟨rfl, rfl⟩ |
    hframe
  · obtain ⟨hlt, ht⟩ := ShaderSetup.updateProgramCode_ok ht
    split at ht
    · subst ht
      exact h
    · subst ht
      exact hashValid_of_dirty rfl
  · exact hashValid_of_dirty rfl
  · exact h.doProgramCodeFixup
  · exact h.getProgramCodeHash.2
  · intro hdirty
    rw [hframe.program.programCodeHashDirty] at hdirty
    rw [hframe.programCodeHash, h hdirty]
    simp only [hashedCode, FixupSetup.getProgramCode, hframe.program.programCode, hframe.program.hasFixup,
      hframe.programCodeFixup, hframe.program.biggestProgramSize]

variable {ops : List SetupOp}

theorem HashValid.run (h : s.HashValid hash) (hrun : s.run host hash ops = .ok s') : s'.HashValid hash := by
  induction ops generalizing s with
  | nil =>
    cases hrun
    exact h
  | cons op ops ih =>
    obtain ⟨s₁, hstep, hrun⟩ := ok_of_bind hrun
    exact ih (h.step hstep) hrun

theorem Shows.run (h : s.Shows i value) (hrun : s.run host hash ops = .ok s')
    (hops : ∀ op ∈ ops, op ≠ .doProgramCodeFixup ∧ op.uploads i = none) : s'.Shows i value := by
  induction ops generalizing s with
  | nil =>
    cases hrun
    exact h
  | cons op ops ih =>
    obtain ⟨s₁, hstep, hrun⟩ := ok_of_bind hrun
    obtain ⟨hfixup, huploads⟩ := hops op List.mem_cons_self
    exact ih (h.step hstep hfixup huploads) hrun fun op hop => hops op (List.mem_cons_of_mem _ hop)

/-- Every upload of a run that changes a word is shown until the next fixup or the next upload to its place. -/
def UploadsShown (host : Host V) (hash : Hash) (s₀ : FixupSetup V) (ops : List SetupOp) : Prop :=
  ∀ before op after rest s s', ops = before ++ op :: after ++ rest → s₀.run host hash before = .ok s →
    s.run host hash (op :: after) = .ok s' → ∀ i value, op.uploads i = some value → s.programCode i ≠ value →
      (∀ op' ∈ after, op' ≠ .doProgramCodeFixup ∧ op'.uploads i = none) → s'.getProgramCode i = value

def UploadsReset (host : Host V) (hash : Hash) (s₀ : FixupSetup V) (ops : List SetupOp) : Prop :=
  ∀ before op after s s', ops = before ++ op :: after → s₀.run host hash before = .ok s →
    s.step host hash op = .ok s' → s.Resets op

/-- Uploads are shown exactly in the runs in which no word is uploaded over a copy whose hash was not asked for, unless
the copy has the word; and the hash is always that of the program. -/
theorem uploadsShown_iff (host : Host V) (hash : Hash) {s₀ : FixupSetup V} (h₀ : s₀.programCodeHashDirty = true)
    (ops : List SetupOp) :
    (UploadsShown host hash s₀ ops ↔ UploadsReset host hash s₀ ops) ∧
      ∀ s, s₀.run host hash ops = .ok s →
        (s.getProgramCodeHash hash).1 = hash ((List.ofFn s.getProgramCode).take s.biggestProgramSize) := by
  refine ⟨⟨?_, ?_⟩, fun s hrun => ((hashValid_of_dirty h₀).run hrun).getProgramCodeHash.1⟩
  · intro hshown before op after s s' hops hbefore hstep
    by_contra hresets
    obtain ⟨i, value, huploads, hchange, hmasked⟩ := masked_of_not_resets hstep hresets
    have hrun : s.run host hash [op] = .ok s' := by
      rw [run, List.foldlM_cons, hstep]
      rfl
    refine hmasked (hshown before op [] after s s' (by simpa using hops) hbefore hrun i value huploads hchange ?_)
    simp
  · intro hreset before op after rest s s' hops hbefore hrun i value huploads hchange hafter
    obtain ⟨s₁, hstep, hrun⟩ := ok_of_bind hrun
    have hresets : s.Resets op := hreset before op (after ++ rest) s s₁ (by simpa using hops) hbefore hstep
    exact ((shows_of_uploads hstep huploads hchange hresets).run hrun hafter).getProgramCode

def initial (zero : V) (requiresFixup : Bool) : FixupSetup V where
  toShaderSetup := ShaderSetup.initial zero
  requiresFixup := requiresFixup
  programCodeFixup := fun _ => 0
  programCodeHash := 0
  swizzleDataHash := 0

/-- A word after the hash was asked for. -/
theorem initial_uploadsShown :
    (UploadsShown rawHost (fun _ => thunderBlade) (initial (fun _ => 0) true)
        [.updateProgramCode 0 5, .getProgramCodeHash, .updateProgramCode 0 7] ↔
      UploadsReset rawHost (fun _ => thunderBlade) (initial (fun _ => 0) true)
        [.updateProgramCode 0 5, .getProgramCodeHash, .updateProgramCode 0 7]) :=
  (uploadsShown_iff rawHost (fun _ => thunderBlade) rfl _).1

/-- A word right after a fixup is masked by the copy. -/
theorem initial_not_uploadsShown :
    ¬ UploadsShown rawHost (fun _ => thunderBlade) (initial (fun _ => 0) true)
      [.doProgramCodeFixup, .updateProgramCode 0 5] := by
  intro h
  have hzero := h [.doProgramCodeFixup] (.updateProgramCode 0 5) [] [] _ _ rfl rfl rfl 0 5 rfl (by decide) (by simp)
  exact absurd hzero (by decide)

end FixupSetup

end Pica

end SweepDSEmu.VideoCore
