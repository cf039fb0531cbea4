import SweepDSEmu.VideoCore.PicaRegisters

/-!
# The queues of packed attributes

Words of uniforms and of attributes wait in a queue until they form a vector.  The queues of the shader units are emptied
whenever they have formed one; the queue of immediate mode is not, when the index of the attribute is above 15.
-/

namespace SweepDSEmu.VideoCore

namespace Pica

variable {V : Type}

/-- The next word completes a vector. -/
def PackedAttribute.Completes (q : PackedAttribute) (isFloat32 : Bool) : Prop :=
  4 ≤ q.index + 1 ∧ isFloat32 = true ∨ 3 ≤ q.index + 1 ∧ isFloat32 = false

instance (q : PackedAttribute) (isFloat32 : Bool) : Decidable (q.Completes isFloat32) :=
  inferInstanceAs (Decidable (_ ∨ _))

theorem PackedAttribute.push_ok {q : PackedAttribute} (h : q.index < 4) (word : BitVec 32) (isFloat32 : Bool) :
    ∃ full q', q.push word isFloat32 = .ok (full, q') ∧ q'.index = q.index + 1 ∧
      (full = true ↔ q.Completes isFloat32) := by
  unfold push
  rw [storeAt_ok h, ok_bind]
  refine ⟨_, _, rfl, rfl, ?_⟩
  cases isFloat32 <;> simp [Completes]

theorem ShaderSetup.writeUniformFloatReg_queue (host : Host V) {t : ShaderSetup V} (h : t.uniformQueue.index < 4)
    (setup value : BitVec 32) :
    Returns (fun r => t.uniformQueue.Completes (bitField 31 1 setup = 1) → r.2.2.uniformQueue.index = 0)
      (t.writeUniformFloatReg host setup value) := by
  obtain ⟨full, q, hpush, -, hfull⟩ := PackedAttribute.push_ok h value (decide (bitField 31 1 setup = 1))
  unfold writeUniformFloatReg
  simp only [hpush, ok_bind]
  cases full with
  | true =>
    rw [if_pos rfl]
    unfold writeUniformFloat
    dsimp only
    split
    · rename_i hindex
      rw [exchangeAt_ok hindex, ok_bind]
      exact fun _ => rfl
    · exact fun _ => rfl
  | false =>
    intro hcompletes
    exact absurd (hfull.mpr hcompletes) Bool.false_ne_true

namespace PicaCore

variable {s s' : PicaCore V}

structure KeepsAttributes (s s' : PicaCore V) : Prop where
  queue : s'.immediate.queue.index ≤ s.immediate.queue.index
  defaults : s'.inputDefaultAttributes = s.inputDefaultAttributes

/-- The command list stays, too. -/
structure KeepsList (s s' : PicaCore V) : Prop extends KeepsAttributes s s' where
  cmdList : s'.cmdList = s.cmdList

private theorem returns_bind {α β : Type} {Q : β → Prop} {x : Except Fault α} {f : α → Except Fault β}
    (h : ∀ a, Returns Q (f a)) : Returns Q (x >>= f) :=
  Outcome.bind (P := fun _ => True) (Outcome.intro (fun _ _ => trivial) fun _ _ => trivial) fun a _ => h a

private theorem returns_ite {α : Type} {Q : α → Prop} {c : Prop} [Decidable c] {x y : Except Fault α}
    (hx : c → Returns Q x) (hy : ¬ c → Returns Q y) : Returns Q (if c then x else y) := by
  split
  · exact hx ‹_›
  · exact hy ‹_›

theorem updateGs_keepsList {update : ShaderSetup V → Except Fault (ShaderSetup V)} :
    Returns (KeepsList s) (s.updateGs update) :=
  returns_bind fun _ => ⟨⟨le_rfl, rfl⟩, rfl⟩

theorem updateShaders_keepsList {update : ShaderSetup V → Except Fault (ShaderSetup V)} :
    Returns (KeepsList s) (s.updateShaders update) := by
  refine returns_bind fun _ => returns_ite (fun _ => ?_) fun _ => ?_
  · exact returns_bind fun _ => ⟨⟨le_rfl, rfl⟩, rfl⟩
  · exact ⟨⟨le_rfl, rfl⟩, rfl⟩

theorem gsUniformInt_keepsList (index : Nat) : Returns (KeepsList s) (s.gsUniformInt index) := updateGs_keepsList

theorem vsUniformInt_keepsList (index : Nat) : Returns (KeepsList s) (s.vsUniformInt index) := updateShaders_keepsList

theorem writeWord_keepsList {offsetReg : Reg} {limit : Nat} {update : PicaCore V → Nat → Except Fault (PicaCore V)}
    (h : ∀ offset, Returns (KeepsList s) (update s offset)) :
    Returns (KeepsList s) (s.writeWord offsetReg limit update) := by
  refine returns_ite (fun _ => ⟨⟨le_rfl, rfl⟩, rfl⟩) fun _ => ?_
  refine Outcome.bind (h _) fun s' hs' => ?_
  exact ⟨⟨hs'.queue, hs'.defaults⟩, hs'.cmdList⟩

theorem copyUniform_keepsList {index : Option Nat} : Returns (KeepsList s) (s.copyUniform index) := by
  unfold copyUniform
  split
  · exact ⟨⟨le_rfl, rfl⟩, rfl⟩
  · refine returns_ite (fun _ => ?_) fun _ => ⟨⟨le_rfl, rfl⟩, rfl⟩
    split
    · exact returns_bind fun _ => ⟨⟨le_rfl, rfl⟩, rfl⟩
    · trivial

theorem lightingLutWord_keepsList {value : BitVec 32} : Returns (KeepsList s) (s.lightingLutWord value) := by
  refine returns_ite (fun _ => ?_) fun _ => trivial
  split
  · exact returns_bind fun _ => ⟨⟨le_rfl, rfl⟩, rfl⟩
  · trivial

theorem proctexLutWord_keepsList {value : BitVec 32} : Returns (KeepsList s) (s.proctexLutWord value) := by
  have hsync (lutTable index : Nat) : Returns (KeepsList s) (s.syncProctex lutTable index value) := by
    unfold syncProctex
    split
    case h_6 => exact ⟨⟨le_rfl, rfl⟩, rfl⟩
    all_goals exact returns_bind fun _ => ⟨⟨le_rfl, rfl⟩, rfl⟩
  exact Outcome.bind (hsync _ _) fun s' hs' => ⟨⟨hs'.queue, hs'.defaults⟩, hs'.cmdList⟩

theorem sideEffects_keepsList (host : Host V) {id : Nat} (hid : ¬ Within id Reg.vsDefaultAttributesValue 3)
    (htrigger : ¬ Within id Reg.commandBufferTrigger 2) (value : BitVec 32) :
    Returns (KeepsList s) (s.sideEffects host id value) := by
  have hfirst : id ≠ Reg.commandBufferTrigger.val := by
    rintro rfl
    exact htrigger ⟨le_rfl, by omega⟩
  have hsecond : id ≠ Reg.commandBufferTrigger.val + 1 := by
    rintro rfl
    exact htrigger ⟨by omega, by omega⟩
  -- one branch for each group of registers, in the order of the source
  refine returns_ite (fun _ => ?_) fun _ => ?_
  · unfold requestIrq
    split
    · exact ⟨⟨le_rfl, rfl⟩, rfl⟩
    · exact ⟨⟨le_rfl, rfl⟩, rfl⟩
  refine returns_ite (fun _ => ⟨⟨Nat.zero_le _, rfl⟩, rfl⟩) fun _ => ?_
  rw [if_neg hid, if_neg hfirst, if_neg hsecond]
  refine returns_ite (fun _ => ⟨⟨le_rfl, rfl⟩, rfl⟩) fun _ => ?_
  refine returns_ite (fun _ => updateGs_keepsList) fun _ => ?_
  refine returns_ite (fun _ => ?_) fun _ => ?_
  · generalize id - (Reg.intUniforms Reg.gs).val = index
    exact gsUniformInt_keepsList index
  refine returns_ite (fun _ => returns_bind fun _ => ⟨⟨le_rfl, rfl⟩, rfl⟩) fun _ => ?_
  refine returns_ite (fun _ => writeWord_keepsList fun _ => updateGs_keepsList) fun _ => ?_
  refine returns_ite (fun _ => writeWord_keepsList fun _ => updateGs_keepsList) fun _ => ?_
  refine returns_ite (fun _ => ?_) fun _ => ?_
  · dsimp only
    split
    · exact ⟨⟨le_rfl, rfl⟩, rfl⟩
    · exact ⟨⟨le_rfl, rfl⟩, rfl⟩
  refine returns_ite (fun _ => updateShaders_keepsList) fun _ => ?_
  refine returns_ite (fun _ => ?_) fun _ => ?_
  · generalize id - (Reg.intUniforms Reg.vs).val = index
    exact vsUniformInt_keepsList index
  refine returns_ite (fun _ => ?_) fun _ => ?_
  · refine returns_bind fun r => copyUniform_keepsList.mono fun s' hs' => ⟨⟨hs'.queue, hs'.defaults⟩, hs'.cmdList⟩
  refine returns_ite (fun _ => writeWord_keepsList fun _ => updateShaders_keepsList) fun _ => ?_
  refine returns_ite (fun _ => writeWord_keepsList fun _ => updateShaders_keepsList) fun _ => ?_
  refine returns_ite (fun _ => lightingLutWord_keepsList) fun _ => ?_
  refine returns_ite (fun _ => returns_bind fun _ => ⟨⟨le_rfl, rfl⟩, rfl⟩) fun _ => ?_
  refine returns_ite (fun _ => proctexLutWord_keepsList) fun _ => ?_
  exact ⟨⟨le_rfl, rfl⟩, rfl⟩

theorem sideEffects_trigger_keeps (host : Host V) {id : Nat} (h : Within id Reg.commandBufferTrigger 2)
    (value : BitVec 32) : Returns (KeepsAttributes s) (s.sideEffects host id value) := by
  have hcases : id = Reg.commandBufferTrigger.val ∨ id = Reg.commandBufferTrigger.val + 1 := by
    obtain ⟨hle, hlt⟩ := h
    omega
  rcases hcases with rfl | rfl
  · exact ⟨le_rfl, rfl⟩
  · exact ⟨le_rfl, rfl⟩

theorem sideEffects_uniformValue_vs (host : Host V) {id : Nat} (h : Within id (Reg.uniformValue Reg.vs) 8)
    (value : BitVec 32) : s.sideEffects host id value = s.vsUniformFloat host value := by
  unfold sideEffects
  unfold Within at h ⊢
  simp only [positions] at h ⊢
  simp (disch := omega) only [if_neg, if_pos]

theorem sideEffects_uniformValue_gs (host : Host V) {id : Nat} (h : Within id (Reg.uniformValue Reg.gs) 8)
    (value : BitVec 32) : s.sideEffects host id value = s.gsUniformFloat host value := by
  unfold sideEffects
  unfold Within at h ⊢
  simp only [positions] at h ⊢
  simp (disch := omega) only [if_neg, if_pos]

structure Submitted (s s' : PicaCore V) : Prop where
  waits : ¬ s.immediate.queue.Completes false ∨ 0xf < (s.regArray Reg.vsDefaultAttributesIndex).toNat →
    s'.immediate.queue.index = s.immediate.queue.index + 1
  empties : s.immediate.queue.Completes false → (s.regArray Reg.vsDefaultAttributesIndex).toNat ≤ 0xf →
    s'.immediate.queue.index = 0
  defaults : s'.inputDefaultAttributes 15 = s.inputDefaultAttributes 15

theorem submitAttribute_queue (host : Host V) (h : s.immediate.currentAttribute < 16) (vector : V) :
    Returns (fun s' => s'.immediate.queue = s.immediate.queue ∧
      s'.inputDefaultAttributes 15 = s.inputDefaultAttributes 15) (s.submitAttribute host vector) := by
  unfold submitAttribute
  dsimp only
  refine returns_ite (fun hlt => ?_) fun _ => ?_
  · have hlt16 : (s.regArray Reg.vsDefaultAttributesIndex).toNat < 16 := by omega
    rw [storeAt_ok hlt16, ok_bind]
    refine ⟨rfl, Function.update_of_ne ?_ _ _⟩
    intro heq
    have hval := congrArg Fin.val heq
    dsimp only at hval
    omega
  · rw [storeAt_ok h, ok_bind]
    exact returns_ite (fun _ => ⟨rfl, rfl⟩) fun _ => ⟨rfl, rfl⟩

theorem submitImmediate_submitted (host : Host V) (h : Bounded s) (hqueue : s.immediate.queue.index < 4)
    (value : BitVec 32) : Returns (Submitted s) (s.submitImmediate host value) := by
  obtain ⟨full, q, hpush, hindex, hfull⟩ := PackedAttribute.push_ok hqueue value false
  unfold submitImmediate
  simp only [hpush, ok_bind]
  refine returns_ite (fun htrue => ?_) fun hfalse => ?_
  · have hcompletes := hfull.mp htrue
    refine returns_ite (fun hgt => ?_) fun hle => ?_
    · exact ⟨fun _ => hindex, fun _ hle => absurd hle (not_le.mpr hgt), rfl⟩
    · refine Outcome.mono (submitAttribute_queue host ?_ _) fun s' hs' => ?_
      · exact h.currentAttribute
      refine ⟨fun hor => ?_, fun _ _ => by rw [hs'.1]; rfl, hs'.2⟩
      rcases hor with hnot | hgt
      · exact absurd hcompletes hnot
      · exact absurd hgt hle
  · exact ⟨fun _ => hindex, fun hcompletes _ => absurd (hfull.mpr hcompletes) hfalse, rfl⟩

theorem writeInternalReg_of {host : Host V} {id : Nat} {value : BitVec 32} {mask : Nat} (hid : id < 0x300)
    (h : s.writeInternalReg host id value mask = .ok s') :
    ∃ word s₁ dirtyRegs,
      sideEffects host { s with regArray := Function.update s.regArray ⟨id, hid⟩ word } id value = .ok s₁ ∧
      s' = { s₁ with dirtyRegs := dirtyRegs } := by
  unfold writeInternalReg at h
  rw [dif_pos hid] at h
  dsimp only at h
  rw [storeAt_ok hid, ok_bind] at h
  obtain ⟨s₁, hs₁, h⟩ := ok_of_bind h
  refine ⟨_, s₁, s'.dirtyRegs, hs₁, ?_⟩
  unfold setDirty at h
  split at h
  · obtain ⟨dirtyRegs, -, h⟩ := ok_of_bind h
    cases h
    rfl
  · cases h

/-- A write of a word to a queue finds room, and takes a vector that is complete out of the queue. -/
structure QueuesSafe (s : PicaCore V) (w : RegWrite) (s' : PicaCore V) : Prop where
  immediate : Within w.id Reg.vsDefaultAttributesValue 3 → s.immediate.queue.index ≤ 3 ∧
    (s.immediate.queue.Completes false → s'.immediate.queue.index = 0)
  vs : Within w.id (Reg.uniformValue Reg.vs) 8 → s.vsSetup.uniformQueue.index ≤ 3 ∧
    (s.vsSetup.uniformQueue.Completes (bitField 31 1 (s.regArray (Reg.uniformSetup Reg.vs)) = 1) →
      s'.vsSetup.uniformQueue.index = 0)
  gs : Within w.id (Reg.uniformValue Reg.gs) 8 → s.gsSetup.uniformQueue.index ≤ 3 ∧
    (s.gsSetup.uniformQueue.Completes (bitField 31 1 (s.regArray (Reg.uniformSetup Reg.gs)) = 1) →
      s'.gsSetup.uniformQueue.index = 0)
  inputVertex : Within w.id Reg.vsDefaultAttributesValue 3 → s.immediate.currentAttribute < 16
  defaults : s'.inputDefaultAttributes 15 = s.inputDefaultAttributes 15

def TakesVector (s : PicaCore V) (id : Nat) : Prop :=
  Within id Reg.vsDefaultAttributesValue 3 → 2 ≤ s.immediate.queue.index →
    (s.regArray Reg.vsDefaultAttributesIndex).toNat ≤ 0xf

/-- What every write of a run finds. -/
structure Waiting (s : PicaCore V) : Prop where
  bounded : Bounded s
  immediate : s.immediate.queue.index < 3

private theorem regArray_of_within {id count : Nat} {r first : Reg} (hid : id < 0x300) (h : Within id first count)
    (hr : r.val < first.val ∨ first.val + count ≤ r.val) (word : BitVec 32) :
    Function.update s.regArray ⟨id, hid⟩ word r = s.regArray r := by
  apply Function.update_of_ne
  intro heq
  have hval : r.val = id := congrArg Fin.val heq
  unfold Within at h
  omega

private theorem lt_of_within {id count : Nat} {first : Reg} (h : Within id first count) (hr : first.val + count ≤ 0x300) :
    id < 0x300 := by
  unfold Within at h
  omega

variable {host : Host V} {w : RegWrite}

theorem submitted_of_write (h : Bounded s) (hqueue : s.immediate.queue.index < 4)
    (hid : Within w.id Reg.vsDefaultAttributesValue 3)
    (hwrite : s.writeInternalReg host w.id w.value w.mask = .ok s') : Submitted s s' := by
  have hlt := lt_of_within hid (by decide)
  obtain ⟨word, s₁, dirtyRegs, heffects, rfl⟩ := writeInternalReg_of hlt hwrite
  rw [sideEffects_vsDefaultAttributesValue host hid] at heffects
  have hstored : Bounded { s with regArray := Function.update s.regArray ⟨w.id, hlt⟩ word } :=
    ⟨h.vsQueue, h.gsQueue, h.currentAttribute⟩
  have hsubmitted := submitImmediate_submitted host hstored hqueue w.value
  rw [heffects] at hsubmitted
  have hindex := regArray_of_within (s := s) (r := Reg.vsDefaultAttributesIndex) hlt hid (by decide) word
  obtain ⟨hwaits, hempties, hdefaults⟩ := hsubmitted
  dsimp only at hwaits hempties hdefaults
  rw [hindex] at hwaits hempties
  exact ⟨hwaits, hempties, hdefaults⟩

theorem keeps_of_write (hid : ¬ Within w.id Reg.vsDefaultAttributesValue 3)
    (hwrite : s.writeInternalReg host w.id w.value w.mask = .ok s') : KeepsAttributes s s' := by
  by_cases hlt : w.id < 0x300
  · obtain ⟨word, s₁, dirtyRegs, heffects, rfl⟩ := writeInternalReg_of hlt hwrite
    have hkeeps : Returns (KeepsAttributes { s with regArray := Function.update s.regArray ⟨w.id, hlt⟩ word })
        (sideEffects host { s with regArray := Function.update s.regArray ⟨w.id, hlt⟩ word } w.id w.value) := by
      by_cases htrigger : Within w.id Reg.commandBufferTrigger 2
      · exact sideEffects_trigger_keeps host htrigger w.value
      · exact (sideEffects_keepsList host hid htrigger w.value).mono fun s' hs' => hs'.toKeepsAttributes
    rw [heffects] at hkeeps
    exact ⟨hkeeps.queue, hkeeps.defaults⟩
  · unfold writeInternalReg at hwrite
    rw [dif_neg hlt] at hwrite
    cases hwrite
    exact ⟨le_rfl, rfl⟩

theorem vsQueue_of_write (h : Bounded s) (hid : Within w.id (Reg.uniformValue Reg.vs) 8)
    (hwrite : s.writeInternalReg host w.id w.value w.mask = .ok s')
    (hcompletes : s.vsSetup.uniformQueue.Completes (bitField 31 1 (s.regArray (Reg.uniformSetup Reg.vs)) = 1)) :
    s'.vsSetup.uniformQueue.index = 0 := by
  have hlt := lt_of_within hid (by decide)
  obtain ⟨word, s₁, dirtyRegs, heffects, rfl⟩ := writeInternalReg_of hlt hwrite
  have hsetup := regArray_of_within (s := s) (r := Reg.uniformSetup Reg.vs) hlt hid (by decide) word
  rw [sideEffects_uniformValue_vs host hid] at heffects
  obtain ⟨⟨index, setup, vsSetup⟩, huniform, heffects⟩ := ok_of_bind heffects
  have hqueue := ShaderSetup.writeUniformFloatReg_queue host h.vsQueue (s.regArray (Reg.uniformSetup Reg.vs)) w.value
  dsimp only at huniform
  rw [hsetup] at huniform
  rw [huniform] at hqueue
  have hzero : vsSetup.uniformQueue.index = 0 := hqueue hcompletes
  have hsame : s₁.vsSetup = vsSetup := by
    unfold copyUniform at heffects
    cases index with
    | none =>
      cases heffects
      rfl
    | some index =>
      dsimp only at heffects
      split_ifs at heffects
      · obtain ⟨uniformsF, -, heffects⟩ := ok_of_bind heffects
        cases heffects
        rfl
      · cases heffects
        rfl
  rw [← hsame] at hzero
  exact hzero

theorem gsQueue_of_write (h : Bounded s) (hid : Within w.id (Reg.uniformValue Reg.gs) 8)
    (hwrite : s.writeInternalReg host w.id w.value w.mask = .ok s')
    (hcompletes : s.gsSetup.uniformQueue.Completes (bitField 31 1 (s.regArray (Reg.uniformSetup Reg.gs)) = 1)) :
    s'.gsSetup.uniformQueue.index = 0 := by
  have hlt := lt_of_within hid (by decide)
  obtain ⟨word, s₁, dirtyRegs, heffects, rfl⟩ := writeInternalReg_of hlt hwrite
  have hsetup := regArray_of_within (s := s) (r := Reg.uniformSetup Reg.gs) hlt hid (by decide) word
  rw [sideEffects_uniformValue_gs host hid] at heffects
  obtain ⟨⟨index, setup, gsSetup⟩, huniform, heffects⟩ := ok_of_bind heffects
  have hqueue := ShaderSetup.writeUniformFloatReg_queue host h.gsQueue (s.regArray (Reg.uniformSetup Reg.gs)) w.value
  dsimp only at huniform
  rw [hsetup] at huniform
  rw [huniform] at hqueue
  cases heffects
  exact hqueue hcompletes

theorem bounded_of_write (h : Bounded s) (hwrite : s.writeInternalReg host w.id w.value w.mask = .ok s') :
    Bounded s' := by
  by_cases hp : Proper s w.id
  · have hbounded := writeInternalReg_inBounds host h hp w.value w.mask
    rw [hwrite] at hbounded
    exact hbounded
  · obtain ⟨i, n, herror⟩ := writeInternalReg_error host hp w.value w.mask
    rw [hwrite] at herror
    cases herror

theorem Waiting.step (host : Host V) (h : Waiting s) (hlut : ¬ Within w.id Reg.lutData 8) (htakes : TakesVector s w.id) :
    ∃ s', s.writeInternalReg host w.id w.value w.mask = .ok s' ∧ QueuesSafe s w s' ∧ Waiting s' := by
  have hqueue : s.immediate.queue.index < 4 := by have := h.immediate; omega
  have hproper : Proper s w.id := ⟨fun hid => absurd hid hlut, fun _ => hqueue⟩
  obtain ⟨s', hwrite, hbounded⟩ := (writeInternalReg_inBounds host h.bounded hproper w.value w.mask).exists_ok
  have hcompletes : s.immediate.queue.Completes false ↔ 2 ≤ s.immediate.queue.index := by
    simp [PackedAttribute.Completes]
  have hvs := h.bounded.vsQueue
  have hgs := h.bounded.gsQueue
  refine ⟨s', hwrite, ?_, hbounded, ?_⟩
  · constructor
    · intro hid
      have hsubmitted := submitted_of_write h.bounded hqueue hid hwrite
      exact ⟨by omega, fun hfull => hsubmitted.empties hfull (htakes hid (hcompletes.mp hfull))⟩
    · exact fun hid => ⟨by omega, vsQueue_of_write h.bounded hid hwrite⟩
    · exact fun hid => ⟨by omega, gsQueue_of_write h.bounded hid hwrite⟩
    · exact fun _ => h.bounded.currentAttribute
    · by_cases hid : Within w.id Reg.vsDefaultAttributesValue 3
      · exact (submitted_of_write h.bounded hqueue hid hwrite).defaults
      · rw [(keeps_of_write hid hwrite).defaults]
  · have hroom := h.immediate
    by_cases hid : Within w.id Reg.vsDefaultAttributesValue 3
    · have hsubmitted := submitted_of_write h.bounded hqueue hid hwrite
      by_cases hfull : s.immediate.queue.Completes false
      · rw [hsubmitted.empties hfull (htakes hid (hcompletes.mp hfull))]
        omega
      · rw [hsubmitted.waits (.inl hfull)]
        rw [hcompletes] at hfull
        omega
    · have hkeeps := (keeps_of_write hid hwrite).queue
      omega

end PicaCore

open PicaCore

def QueuesSafeRun (host : Host V) (s₀ : PicaCore V) (writes : List RegWrite) : Prop :=
  ∀ before w after s, writes = before ++ w :: after → run host s₀ before = .ok s →
    ∃ s', s.writeInternalReg host w.id w.value w.mask = .ok s' ∧ QueuesSafe s w s'

def TakesVectors (host : Host V) (s₀ : PicaCore V) (writes : List RegWrite) : Prop :=
  ∀ before w after s, writes = before ++ w :: after → run host s₀ before = .ok s → TakesVector s w.id

section Runs

variable {host : Host V} {s s' : PicaCore V} {writes : List RegWrite}

theorem bounded_of_run (h : Bounded s) (hrun : run host s writes = .ok s') : Bounded s' := by
  induction writes generalizing s with
  | nil =>
    cases hrun
    exact h
  | cons w writes ih =>
    obtain ⟨s₁, hwrite, hrun⟩ := ok_of_bind hrun
    exact ih (bounded_of_write h hwrite) hrun

theorem waiting_of_run (h : Waiting s) (hwrites : ∀ w ∈ writes, ¬ Within w.id Reg.lutData 8)
    (htakes : TakesVectors host s writes) (hrun : run host s writes = .ok s') : Waiting s' := by
  induction writes generalizing s with
  | nil =>
    cases hrun
    exact h
  | cons w writes ih =>
    obtain ⟨s₁, hwrite, hrun⟩ := ok_of_bind hrun
    obtain ⟨s₂, hwrite', -, hwaiting⟩ :=
      h.step host (hwrites w List.mem_cons_self) (htakes [] w writes s rfl rfl)
    cases hwrite.symm.trans hwrite'
    refine ih hwaiting (fun w' hw' => hwrites w' (List.mem_cons_of_mem _ hw')) ?_ hrun
    intro before w' after s₂ heq hbefore
    refine htakes (w :: before) w' after s₂ (by rw [heq]; rfl) ?_
    dsimp only at hwrite
    rw [run, List.foldlM_cons, hwrite]
    exact hbefore

/-- The queues of a run are safe exactly when no word of an attribute completes a vector while the index of the
attribute is above 15. -/
theorem queuesSafeRun_iff (host : Host V) {s₀ : PicaCore V} (h₀ : Fresh s₀) (hqueue : s₀.immediate.queue.index = 0)
    (writes : List RegWrite) (hwrites : ∀ w ∈ writes, ¬ Within w.id Reg.lutData 8) :
    QueuesSafeRun host s₀ writes ↔ TakesVectors host s₀ writes := by
  constructor
  · intro hsafe before w after s heq hrun hid hindex
    by_contra hgt
    obtain ⟨s', hwrite, hqueues⟩ := hsafe before w after s heq hrun
    obtain ⟨hroom, hempties⟩ := hqueues.immediate hid
    have hcompletes : s.immediate.queue.Completes false := by
      right
      exact ⟨by omega, rfl⟩
    have hzero := hempties hcompletes
    have hsubmitted := submitted_of_write (bounded_of_run h₀.bounded hrun) (by omega) hid hwrite
    rw [hsubmitted.waits (.inr (not_le.mp hgt))] at hzero
    omega
  · intro htakes before w after s heq hrun
    have hwaiting : Waiting s₀ := ⟨h₀.bounded, by omega⟩
    have hbefore : TakesVectors host s₀ before := by
      intro before' w' after' s' heq' hrun'
      exact htakes before' w' (after' ++ w :: after) s' (by rw [heq, heq']; simp) hrun'
    have hw : w ∈ writes := by simp [heq]
    have hreached := waiting_of_run hwaiting (fun w' hw' => hwrites w' (by simp [heq, hw'])) hbefore hrun
    obtain ⟨s', hwrite, hqueues, -⟩ := hreached.step host (hwrites w hw) (htakes before w after s heq hrun)
    exact ⟨s', hwrite, hqueues⟩

end Runs

/-- A complete attribute with the index 3. -/
theorem initial_queuesSafeRun :
    QueuesSafeRun rawHost (PicaCore.initial fun _ => 0) [⟨0x232, 3, 0xf⟩, ⟨0x233, 1, 0xf⟩, ⟨0x234, 2, 0xf⟩] ↔
      TakesVectors rawHost (PicaCore.initial fun _ => 0) [⟨0x232, 3, 0xf⟩, ⟨0x233, 1, 0xf⟩, ⟨0x234, 2, 0xf⟩] :=
  queuesSafeRun_iff rawHost ⟨rfl, rfl, rfl⟩ rfl _ (by decide)

/-- The vector stays in the queue when the index is 16. -/
theorem initial_not_queuesSafeRun :
    ¬ QueuesSafeRun rawHost (PicaCore.initial fun _ => 0)
      [⟨0x232, 0x10, 0xf⟩, ⟨0x233, 1, 0xf⟩, ⟨0x234, 2, 0xf⟩, ⟨0x235, 3, 0xf⟩] := by
  intro h
  obtain ⟨s', hwrite, hqueues⟩ := h [⟨0x232, 0x10, 0xf⟩, ⟨0x233, 1, 0xf⟩, ⟨0x234, 2, 0xf⟩] ⟨0x235, 3, 0xf⟩ [] _ rfl rfl
  cases hwrite
  exact absurd ((hqueues.immediate (by decide)).2 (by decide)) (by decide)

end Pica

end SweepDSEmu.VideoCore
