import SweepDSEmu.VideoCore.VertexCache
import Mathlib.Tactic.Ring

/-!
# The geometry pipeline

The backends of `GeometryPipeline`, which buffer vertices for the geometry shader: in a buffer of attributes, or in its
float uniforms.

* Stores go through `storeAt`.  The position of the next store is `cur`.
* What is sent to the geometry pipeline after a reconfiguration is a list of `Feed`s: a turn of `LoadVertices` with
  indices has an index and a vertex, one of which is submitted; `DrawImmediate` has a vertex.
* `SafeRun` is what is to hold of them, and `Fits` says of the registers and the indices when it does.
-/

namespace SweepDSEmu.VideoCore

namespace Pica

section Registers

variable (regs : Reg → BitVec 32)

def useGs : Nat := bitField 0 2 (regs 0x229)
def variablePrimitive : Nat := bitField 31 1 (regs 0x229)
def vsOutmapTotalMinus1A : Nat := bitField 0 4 (regs 0x24a)
def vsOutmapTotalMinus1B : Nat := bitField 0 4 (regs 0x251)
def gsMode : Nat := bitField 0 8 (regs 0x252)
def fixedVertexNumMinus1 : Nat := bitField 8 4 (regs 0x252)
def strideMinus1 : Nat := bitField 12 4 (regs 0x252)
def startIndex : Nat := bitField 16 8 (regs 0x252)
def variableVertexMainNumMinus1 : BitVec 32 := regs 0x254

/-- The registers of the geometry shader unit. -/
def gsRegs : ShaderRegs := ⟨regs, Reg.gs⟩

def gsInputToUniform : Nat := bitField 8 8 (regs (Reg.gs + 0x09))
def gsShaderMode : Nat := bitField 24 8 (regs (Reg.gs + 0x09))

def vsOutputNum : Nat := vsOutmapTotalMinus1A regs + 1
def gsInputNum : Nat := (gsRegs regs).maxInputAttributeIndex + 1
def fixedVertexNum : Nat := fixedVertexNumMinus1 regs + 1
def mainVertexNum : Nat := (variableVertexMainNumMinus1 regs + 1).toNat

end Registers

/-- `std::copy` of the first attributes of a buffer. -/
def copyTo {V : Type} {n : Nat} (t : Table V n) (cur : Nat) (input : AttributeBuffer V) (count : Nat) :
    Except Fault (Table V n) :=
  (List.range count).foldlM (fun t i => storeAt t (cur + i) (input (Fin.ofNat 16 i))) t

structure PointBackend (V : Type) where
  vsOutputNum : Nat
  attributeBuffer : AttributeBuffer V
  cur : Nat
  stop : Nat

/-- What the constructor does not initialize is not read before an index was submitted. -/
structure VariablePrimitiveBackend where
  vsOutputNum : Nat
  needIndex : Bool := true
  mainVertexNum : Nat := 0
  totalVertexNum : Nat := 0
  cur : Nat := 0

def VariablePrimitiveBackend.taken (b : VariablePrimitiveBackend) : Nat :=
  if b.mainVertexNum ≠ 0 then b.vsOutputNum else 1

structure FixedPrimitiveBackend where
  vsOutputNum : Nat
  start : Nat
  cur : Nat
  stop : Nat

inductive Backend (V : Type) where
  | point (backend : PointBackend V)
  | variablePrimitive (backend : VariablePrimitiveBackend)
  | fixedPrimitive (backend : FixedPrimitiveBackend)

/-- The geometry pipeline, the geometry shader with it, and what was sent to the primitive assembler. -/
structure GeometryState (V S : Type) where
  backend : Option (Backend V)
  uniformsF : Table V 96
  uniformB15 : Bool
  unit : ShaderUnit V S
  handled : List (AttributeBuffer V)

namespace Backend

variable {V : Type}

def isEmpty : Backend V → Bool
  | .point b => b.cur = 0
  | .variablePrimitive b => b.needIndex
  | .fixedPrimitive b => b.cur = b.start

def needIndexInput : Backend V → Bool
  | .variablePrimitive b => b.needIndex
  | _ => false

def create (regs : Reg → BitVec 32) (buffer : AttributeBuffer V) : Except Fault (Backend V) :=
  match gsMode regs with
  | 0 =>
    if Pica.variablePrimitive regs = 0 ∧ gsInputToUniform regs = 0 ∧ gsInputNum regs % Pica.vsOutputNum regs = 0 then
      .ok (.point ⟨Pica.vsOutputNum regs, buffer, 0, gsInputNum regs⟩)
    else .error .assertion
  | 1 =>
    if Pica.variablePrimitive regs = 1 ∧ gsInputToUniform regs = 1 then
      .ok (.variablePrimitive { vsOutputNum := Pica.vsOutputNum regs })
    else .error .assertion
  | 2 =>
    if Pica.variablePrimitive regs = 0 ∧ gsInputToUniform regs = 1 ∧ Pica.vsOutputNum regs = strideMinus1 regs + 1 then
      let stop := startIndex regs + Pica.vsOutputNum regs * fixedVertexNum regs
      .ok (.fixedPrimitive ⟨Pica.vsOutputNum regs, startIndex regs, startIndex regs, stop⟩)
    else .error .assertion
  | _ => .error .assertion

end Backend

namespace GeometryState

variable {V S : Type} (vertexNum : Nat → V) (run : ShaderUnit V S → ShaderUnit V S) (regs : Reg → BitVec 32)

def reconfigure (buffer : AttributeBuffer V) (s : GeometryState V S) : Except Fault (GeometryState V S) :=
  if s.backend.all Backend.isEmpty then
    if useGs regs = 0 then .ok { s with backend := none }
    else if gsShaderMode regs = 8 ∧ useGs regs = 2 ∧ vsOutmapTotalMinus1A regs = vsOutmapTotalMinus1B regs then
      (Backend.create regs buffer).map fun backend => { s with backend := some backend }
    else .error .assertion
  else .error .assertion

def needIndexInput (s : GeometryState V S) : Bool := s.backend.any Backend.needIndexInput

def submitIndex (s : GeometryState V S) (val : Nat) : Except Fault (GeometryState V S) :=
  match s.backend with
  | some (.variablePrimitive b) => do
    let uniformsF ← storeAt s.uniformsF 0 (vertexNum val)
    let b := { b with cur := 1, mainVertexNum := mainVertexNum regs, totalVertexNum := val, needIndex := false }
    return { s with uniformsF := uniformsF, backend := some (.variablePrimitive b) }
  | _ => .error .assertion

/-- The `SubmitVertex` of a backend, and if the buffer is full. -/
def backendSubmitVertex (s : GeometryState V S) (input : AttributeBuffer V) :
    Backend V → Except Fault (GeometryState V S × Bool)
  | .point b => do
    let buffer ← copyTo b.attributeBuffer b.cur input b.vsOutputNum
    let cur := b.cur + b.vsOutputNum
    if cur = b.stop then
      let backend := Backend.point { b with attributeBuffer := buffer, cur := 0 }
      return ({ s with backend := some backend, unit := s.unit.loadInput (gsRegs regs) buffer }, true)
    else
      return ({ s with backend := some (.point { b with attributeBuffer := buffer, cur := cur }) }, false)
  | .variablePrimitive b => do
    let main : Bool := b.mainVertexNum ≠ 0
    let stored :=
      if main then copyTo s.uniformsF b.cur input b.vsOutputNum else storeAt s.uniformsF b.cur (input 0)
    let uniformsF ← stored
    let total := (b.totalVertexNum + (2 ^ 32 - 1)) % 2 ^ 32
    let b := { b with
      cur := if main then b.cur + b.vsOutputNum else b.cur + 1
      mainVertexNum := b.mainVertexNum - 1
      totalVertexNum := total
      needIndex := decide (total = 0) || b.needIndex }
    return ({ s with uniformsF := uniformsF, backend := some (.variablePrimitive b) }, decide (total = 0))
  | .fixedPrimitive b => do
    let uniformsF ← copyTo s.uniformsF b.cur input b.vsOutputNum
    let cur := b.cur + b.vsOutputNum
    let full : Bool := cur = b.stop
    let b := { b with cur := if full then b.start else cur }
    return ({ s with uniformsF := uniformsF, backend := some (.fixedPrimitive b) }, full)

inductive Event where
  | index (val : Nat)
  | vertex (full : Bool)
  /-- There is no geometry shader. -/
  | handled

def submitVertex (s : GeometryState V S) (input : AttributeBuffer V) : Except Fault (GeometryState V S × Event) :=
  match s.backend with
  | none => .ok ({ s with handled := s.handled ++ [input] }, .handled)
  | some backend => do
    let (s, full) ← s.backendSubmitVertex regs input backend
    return (if full then { s with unit := run s.unit, uniformB15 := true } else s, .vertex full)

def pipeline (buffer : AttributeBuffer V) : GeometryPipeline (GeometryState V S) V where
  reconfigure := reconfigure regs buffer
  needIndexInput := needIndexInput
  submitIndex := submitIndex vertexNum regs
  submitVertex := fun s input => (s.submitVertex run regs input).map Prod.fst

inductive Feed (V : Type) where
  /-- A turn of `LoadVertices` for an index. -/
  | indexed (val : BitVec 16) (output : AttributeBuffer V)
  /-- `DrawImmediate`, with the registers of that time, or a turn of `LoadVertices` without indices. -/
  | plain (regs : Reg → BitVec 32) (output : AttributeBuffer V)

def feed (s : GeometryState V S) : Feed V → Except Fault (GeometryState V S × Event)
  | .indexed val output =>
    if s.needIndexInput then (s.submitIndex vertexNum regs val.toNat).map fun s => (s, .index val.toNat)
    else s.submitVertex run regs output
  | .plain regs output => if s.needIndexInput then .error .assertion else s.submitVertex run regs output

/-- How many vertices fill the buffer, and how many have come since it was empty. -/
structure Batch where
  configured : Nat
  submitted : Nat

def Awaits (s : GeometryState V S) : Prop :=
  ∀ b, s.backend = some (.variablePrimitive b) → b.totalVertexNum ≠ 0

/-- Stores stay inside of the buffers, the number of vertices does not become less than zero, and the buffer is full
with as many vertices as are configured. -/
def SafeRun (s : GeometryState V S) (b : Batch) : List (Feed V) → Prop
  | [] => True
  | f :: rest =>
    match s.feed vertexNum run regs f with
    | .error fault => fault = .assertion
    | .ok (s', .index val) => s'.SafeRun ⟨val, 0⟩ rest
    | .ok (s', .vertex full) =>
      s.Awaits ∧ (full = true ↔ b.submitted + 1 = b.configured) ∧
        s'.SafeRun ⟨b.configured, if full then 0 else b.submitted + 1⟩ rest
    | .ok (s', .handled) => s'.SafeRun b rest

example (s : GeometryState V S) (b : Batch) : s.SafeRun vertexNum run regs b [] := by simp [SafeRun]

def configuredNum : Nat := if gsMode regs = 0 then gsInputNum regs / vsOutputNum regs else fixedVertexNum regs

end GeometryState

/-- The uniforms for some vertices, the first of which have all of their attributes. -/
def room (vsOutputNum main count : Nat) : Nat := vsOutputNum * min main count + (count - main)

/-- The batches of a backend for variable primitives fit in the uniforms.  An index that is 0 takes no vertex. -/
inductive BatchesFit {V : Type} (vsOutputNum main : Nat) : List (GeometryState.Feed V) → Prop where
  | nil : BatchesFit vsOutputNum main []
  | stopped (regs : Reg → BitVec 32) (output : AttributeBuffer V) (rest : List (GeometryState.Feed V)) :
    BatchesFit vsOutputNum main (.plain regs output :: rest)
  | last (output : AttributeBuffer V) : BatchesFit vsOutputNum main [.indexed 0 output]
  | batch (val : BitVec 16) (output : AttributeBuffer V) (rest : List (GeometryState.Feed V)) (positive : val ≠ 0)
    (fits : 1 + room vsOutputNum main (min val.toNat rest.length) ≤ 96)
    (later : BatchesFit vsOutputNum main (rest.drop val.toNat)) :
    BatchesFit vsOutputNum main (.indexed val output :: rest)

def Fits {V : Type} (regs : Reg → BitVec 32) (feeds : List (GeometryState.Feed V)) : Prop :=
  useGs regs = 0 ∨
    match gsMode regs with
    | 1 => BatchesFit (vsOutputNum regs) (mainVertexNum regs) feeds
    | 2 => feeds = [] ∨ startIndex regs + vsOutputNum regs * min feeds.length (fixedVertexNum regs) ≤ 96
    | _ => True

theorem copyTo_of_le {V : Type} {n : Nat} (t : Table V n) {cur count : Nat} (input : AttributeBuffer V)
    (h : cur + count ≤ n) : ∃ t', copyTo t cur input count = .ok t' := by
  induction count with
  | zero => exact ⟨t, rfl⟩
  | succ count ih =>
    obtain ⟨t', ht'⟩ := ih (by omega)
    unfold copyTo at ht' ⊢
    rw [List.range_succ, List.foldlM_append, ht']
    have hlt : cur + count < n := by omega
    refine ⟨Function.update t' ⟨cur + count, hlt⟩ (input (Fin.ofNat 16 count)), ?_⟩
    rw [ok_bind, List.foldlM_cons, storeAt_ok hlt, ok_bind]
    rfl

theorem copyTo_of_lt {V : Type} {n : Nat} (t : Table V n) {cur count : Nat} (input : AttributeBuffer V)
    (hpos : 0 < count) (h : n < cur + count) : ∃ i, copyTo t cur input count = .error (.outOfBounds i n) := by
  induction count with
  | zero => omega
  | succ count ih =>
    by_cases hearlier : 0 < count ∧ n < cur + count
    · obtain ⟨i, hi⟩ := ih hearlier.1 hearlier.2
      unfold copyTo at hi ⊢
      rw [List.range_succ, List.foldlM_append, hi]
      exact ⟨i, rfl⟩
    · obtain ⟨t', ht'⟩ : ∃ t', copyTo t cur input count = .ok t' := by
        rcases Nat.eq_zero_or_pos count with rfl | hcount
        · exact ⟨t, rfl⟩
        · exact copyTo_of_le t input (by omega)
      unfold copyTo at ht' ⊢
      rw [List.range_succ, List.foldlM_append, ht']
      have hge : ¬ cur + count < n := by omega
      refine ⟨cur + count, ?_⟩
      rw [ok_bind, List.foldlM_cons, storeAt, dif_neg hge]
      rfl

theorem copyTo_one {V : Type} {n : Nat} (t : Table V n) (cur : Nat) (input : AttributeBuffer V) :
    copyTo t cur input 1 = storeAt t cur (input 0) := by
  unfold copyTo storeAt
  by_cases h : cur < n <;> simp [List.range_succ, h, bind, Except.bind, pure, Except.pure]

namespace GeometryState

variable {V S : Type} (vertexNum : Nat → V) (run : ShaderUnit V S → ShaderUnit V S) (regs : Reg → BitVec 32)

variable {s : GeometryState V S} {b : VariablePrimitiveBackend}

theorem feed_vertex (h : s.needIndexInput = false) (f : Feed V) :
    ∃ regs' output, s.feed vertexNum run regs f = s.submitVertex run regs' output := by
  cases f with
  | indexed val output => exact ⟨regs, output, by simp [feed, h]⟩
  | plain regs' output => exact ⟨regs', output, by simp [feed, h]⟩

theorem submitVertex_point {b : PointBackend V} (hb : s.backend = some (.point b))
    (h : b.cur + b.vsOutputNum ≤ 16) (input : AttributeBuffer V) :
    ∃ s' buffer, s.submitVertex run regs input = .ok (s', .vertex (b.cur + b.vsOutputNum = b.stop)) ∧
      s'.backend = some (.point
        { b with
          attributeBuffer := buffer
          cur := if b.cur + b.vsOutputNum = b.stop then 0 else b.cur + b.vsOutputNum }) := by
  obtain ⟨buffer, hbuffer⟩ := copyTo_of_le b.attributeBuffer input h
  simp only [submitVertex, hb, backendSubmitVertex, hbuffer, bind, Except.bind, pure, Except.pure]
  by_cases hfull : b.cur + b.vsOutputNum = b.stop
  · exact ⟨_, buffer, by rw [if_pos hfull, decide_eq_true hfull], by rw [if_pos hfull]; rfl⟩
  · exact ⟨_, buffer, by rw [if_neg hfull, decide_eq_false hfull], by rw [if_neg hfull]; rfl⟩

theorem submitVertex_fixed {b : FixedPrimitiveBackend}
    (hb : s.backend = some (.fixedPrimitive b)) (h : b.cur + b.vsOutputNum ≤ 96) (input : AttributeBuffer V) :
    ∃ s', s.submitVertex run regs input = .ok (s', .vertex (b.cur + b.vsOutputNum = b.stop)) ∧
      s'.backend = some (.fixedPrimitive
        { b with cur := if b.cur + b.vsOutputNum = b.stop then b.start else b.cur + b.vsOutputNum }) := by
  obtain ⟨uniforms, huniforms⟩ := copyTo_of_le s.uniformsF input h
  simp only [submitVertex, hb, backendSubmitVertex, huniforms, bind, Except.bind, pure, Except.pure]
  refine ⟨_, rfl, ?_⟩
  by_cases hfull : b.cur + b.vsOutputNum = b.stop
  · simp only [decide_eq_true hfull, if_true, if_pos hfull]
  · simp only [decide_eq_false hfull, Bool.false_eq_true, if_false, if_neg hfull]

theorem submitVertex_fixed_outside {b : FixedPrimitiveBackend}
    (hb : s.backend = some (.fixedPrimitive b)) (hpos : 0 < b.vsOutputNum) (h : 96 < b.cur + b.vsOutputNum)
    (input : AttributeBuffer V) : ∃ i, s.submitVertex run regs input = .error (.outOfBounds i 96) := by
  obtain ⟨i, hi⟩ := copyTo_of_lt s.uniformsF input hpos h
  exact ⟨i, by simp only [submitVertex, hb, backendSubmitVertex, hi, bind, Except.bind]⟩

private theorem variable_store (s : GeometryState V S) (b : VariablePrimitiveBackend) (input : AttributeBuffer V) :
    (if (decide (b.mainVertexNum ≠ 0)) = true then copyTo s.uniformsF b.cur input b.vsOutputNum
      else storeAt s.uniformsF b.cur (input 0)) = copyTo s.uniformsF b.cur input b.taken := by
  by_cases h : b.mainVertexNum = 0
  · simp [VariablePrimitiveBackend.taken, h, copyTo_one]
  · simp [VariablePrimitiveBackend.taken, h]

theorem submitVertex_variable
    (hb : s.backend = some (.variablePrimitive b)) (h : b.cur + b.taken ≤ 96) (input : AttributeBuffer V) :
    ∃ s', s.submitVertex run regs input =
        .ok (s', .vertex ((b.totalVertexNum + (2 ^ 32 - 1)) % 2 ^ 32 = 0)) ∧
      s'.backend = some (.variablePrimitive
        { b with
          cur := b.cur + b.taken
          mainVertexNum := b.mainVertexNum - 1
          totalVertexNum := (b.totalVertexNum + (2 ^ 32 - 1)) % 2 ^ 32
          needIndex := decide ((b.totalVertexNum + (2 ^ 32 - 1)) % 2 ^ 32 = 0) || b.needIndex }) := by
  obtain ⟨uniforms, huniforms⟩ := copyTo_of_le s.uniformsF input h
  rw [← variable_store] at huniforms
  have hcur : (if (decide (b.mainVertexNum ≠ 0)) = true then b.cur + b.vsOutputNum else b.cur + 1) =
      b.cur + b.taken := by
    by_cases h : b.mainVertexNum = 0 <;> simp [VariablePrimitiveBackend.taken, h]
  simp only [submitVertex, hb, backendSubmitVertex, huniforms, hcur, bind, Except.bind, pure, Except.pure]
  refine ⟨_, rfl, ?_⟩
  split <;> rfl

theorem submitVertex_variable_outside
    (hb : s.backend = some (.variablePrimitive b)) (hpos : 0 < b.taken) (h : 96 < b.cur + b.taken)
    (input : AttributeBuffer V) : ∃ i, s.submitVertex run regs input = .error (.outOfBounds i 96) := by
  obtain ⟨i, hi⟩ := copyTo_of_lt s.uniformsF input hpos h
  rw [← variable_store] at hi
  exact ⟨i, by simp only [submitVertex, hb, backendSubmitVertex, hi, bind, Except.bind]⟩

theorem submitIndex_variable (hb : s.backend = some (.variablePrimitive b)) (val : Nat) :
    ∃ s', s.submitIndex vertexNum regs val = .ok s' ∧ s'.backend = some (.variablePrimitive
        { b with cur := 1, mainVertexNum := mainVertexNum regs, totalVertexNum := val, needIndex := false }) := by
  simp [submitIndex, hb, storeAt, bind, Except.bind, pure, Except.pure]

section Runs

variable {vertexNum : Nat → V} {run : ShaderUnit V S → ShaderUnit V S} {regs : Reg → BitVec 32}

theorem safeRun_vertex {s s' : GeometryState V S} {f : Feed V} {full : Prop} [Decidable full]
    (h : s.feed vertexNum run regs f = .ok (s', .vertex full)) (batch : Batch) (rest : List (Feed V)) :
    s.SafeRun vertexNum run regs batch (f :: rest) ↔
      s.Awaits ∧ (full ↔ batch.submitted + 1 = batch.configured) ∧
        s'.SafeRun vertexNum run regs ⟨batch.configured, if full then 0 else batch.submitted + 1⟩ rest := by
  rw [SafeRun, h]
  simp only [decide_eq_true_eq]

theorem safeRun_index {s s' : GeometryState V S} {f : Feed V} {val : Nat}
    (h : s.feed vertexNum run regs f = .ok (s', .index val)) (batch : Batch) (rest : List (Feed V)) :
    s.SafeRun vertexNum run regs batch (f :: rest) ↔ s'.SafeRun vertexNum run regs ⟨val, 0⟩ rest := by
  rw [SafeRun, h]

theorem safeRun_fault {s : GeometryState V S} {f : Feed V} {fault : Fault}
    (h : s.feed vertexNum run regs f = .error fault) (batch : Batch) (rest : List (Feed V)) :
    s.SafeRun vertexNum run regs batch (f :: rest) ↔ fault = .assertion := by
  rw [SafeRun, h]

theorem safeRun_none (feeds : List (Feed V)) :
    ∀ {s : GeometryState V S} {batch : Batch}, s.backend = none → s.SafeRun vertexNum run regs batch feeds := by
  induction feeds with
  | nil => exact fun _ => trivial
  | cons f rest ih =>
    intro s batch hb
    have hneed : s.needIndexInput = false := by simp [needIndexInput, hb]
    obtain ⟨regs', output, hfeed⟩ := feed_vertex vertexNum run regs hneed f
    rw [SafeRun, hfeed]
    simp only [submitVertex, hb]
    exact ih rfl

/-- The buffer holds what was submitted, and room for the rest. -/
structure PointOk (b : PointBackend V) (batch : Batch) : Prop where
  positive : 0 < b.vsOutputNum
  cur : b.cur = b.vsOutputNum * batch.submitted
  stop : b.stop = b.vsOutputNum * batch.configured
  bound : b.stop ≤ 16
  submitted : batch.submitted < batch.configured

theorem PointOk.stop_iff {b : PointBackend V} {batch : Batch} (h : PointOk b batch) :
    b.cur + b.vsOutputNum = b.stop ↔ batch.submitted + 1 = batch.configured := by
  rw [h.cur, h.stop, ← Nat.mul_succ]
  exact Nat.mul_right_inj (Nat.pos_iff_ne_zero.mp h.positive)

private theorem next_le {vs submitted configured : Nat} (h : submitted < configured) :
    vs * submitted + vs ≤ vs * configured := by
  exact Nat.mul_le_mul_left vs h

theorem safeRun_point (feeds : List (Feed V)) :
    ∀ {s : GeometryState V S} {b : PointBackend V} {batch : Batch}, s.backend = some (.point b) → PointOk b batch →
      s.SafeRun vertexNum run regs batch feeds := by
  induction feeds with
  | nil => exact fun _ _ => trivial
  | cons f rest ih =>
    intro s b batch hb hok
    have hneed : s.needIndexInput = false := by simp [needIndexInput, hb, Backend.needIndexInput]
    obtain ⟨regs', output, hfeed⟩ := feed_vertex vertexNum run regs hneed f
    have hfit : b.cur + b.vsOutputNum ≤ 16 := by
      rw [hok.cur]
      exact (next_le hok.submitted).trans (hok.stop ▸ hok.bound)
    obtain ⟨s', buffer, hsubmit, hb'⟩ := submitVertex_point run regs' hb hfit output
    rw [safeRun_vertex (hfeed.trans hsubmit)]
    refine ⟨fun b' h => by simp [hb] at h, hok.stop_iff, ih hb' ⟨hok.positive, ?_, hok.stop, hok.bound, ?_⟩⟩
    · by_cases hfull : b.cur + b.vsOutputNum = b.stop
      · simp [hfull]
      · rw [if_neg hfull, if_neg hfull, hok.cur, Nat.mul_succ]
    · have hlt := hok.submitted
      by_cases hfull : b.cur + b.vsOutputNum = b.stop
      · simp only [hfull, if_true]
        omega
      · have hne := mt hok.stop_iff.mpr hfull
        simp only [hfull, if_false]
        omega

structure FixedOk (b : FixedPrimitiveBackend) (batch : Batch) : Prop where
  positive : 0 < b.vsOutputNum
  cur : b.cur = b.start + b.vsOutputNum * batch.submitted
  stop : b.stop = b.start + b.vsOutputNum * batch.configured
  submitted : batch.submitted < batch.configured

theorem FixedOk.stop_iff {b : FixedPrimitiveBackend} {batch : Batch} (h : FixedOk b batch) :
    b.cur + b.vsOutputNum = b.stop ↔ batch.submitted + 1 = batch.configured := by
  rw [h.cur, h.stop, Nat.add_assoc, Nat.add_left_cancel_iff, ← Nat.mul_succ]
  exact Nat.mul_right_inj (Nat.pos_iff_ne_zero.mp h.positive)

/-- The vertices fit as long as they do up to the first full buffer. -/
theorem safeRun_fixed_iff (feeds : List (Feed V)) :
    ∀ {s : GeometryState V S} {b : FixedPrimitiveBackend} {batch : Batch},
      s.backend = some (.fixedPrimitive b) → FixedOk b batch →
        (s.SafeRun vertexNum run regs batch feeds ↔
          feeds = [] ∨ b.start + b.vsOutputNum * min (batch.submitted + feeds.length) batch.configured ≤ 96) := by
  induction feeds with
  | nil => exact fun _ _ => iff_of_true trivial (.inl rfl)
  | cons f rest ih =>
    intro s b batch hb hok
    have hneed : s.needIndexInput = false := by simp [needIndexInput, hb, Backend.needIndexInput]
    obtain ⟨regs', output, hfeed⟩ := feed_vertex vertexNum run regs hneed f
    have hcur : b.cur + b.vsOutputNum = b.start + b.vsOutputNum * (batch.submitted + 1) := by
      rw [hok.cur, Nat.mul_succ, Nat.add_assoc]
    have hmono {k m : Nat} (h : k ≤ m) : b.vsOutputNum * k ≤ b.vsOutputNum * m := Nat.mul_le_mul_left _ h
    have hlt := hok.submitted
    simp only [reduceCtorEq, false_or, List.length_cons]
    by_cases hfit : b.cur + b.vsOutputNum ≤ 96
    · obtain ⟨s', hsubmit, hb'⟩ := submitVertex_fixed run regs' hb hfit output
      rw [safeRun_vertex (hfeed.trans hsubmit)]
      have hawaits : s.Awaits := fun b' h => by simp [hb] at h
      by_cases hfull : b.cur + b.vsOutputNum = b.stop
      · -- what was filled once can be filled again
        have hlast := hok.stop_iff.mp hfull
        have hall : b.start + b.vsOutputNum * batch.configured ≤ 96 := by
          rw [← hlast, ← hcur]
          exact hfit
        rw [if_pos hfull] at hb'
        simp only [hfull, if_true]
        have hok' : FixedOk { b with cur := b.start } ⟨batch.configured, 0⟩ :=
          ⟨hok.positive, by simp, hok.stop, by dsimp only; omega⟩
        rw [ih hb' hok']
        have h₁ := hmono (Nat.min_le_right (batch.submitted + (rest.length + 1)) batch.configured)
        have h₂ := hmono (Nat.min_le_right (0 + rest.length) batch.configured)
        exact iff_of_true ⟨hawaits, iff_of_true trivial hlast, .inr (by dsimp only; omega)⟩ (by omega)
      · have hne := mt hok.stop_iff.mpr hfull
        rw [if_neg hfull] at hb'
        simp only [hfull, if_false]
        have hok' : FixedOk { b with cur := b.cur + b.vsOutputNum } ⟨batch.configured, batch.submitted + 1⟩ :=
          ⟨hok.positive, hcur, hok.stop, by dsimp only; omega⟩
        rw [ih hb' hok']
        have hcount : batch.submitted + 1 + rest.length = batch.submitted + (rest.length + 1) := by omega
        simp only [hcount]
        refine ⟨fun ⟨_, _, h⟩ => ?_, fun h => ⟨hawaits, iff_of_false (fun h => h.elim) hne, .inr h⟩⟩
        rcases h with rfl | h
        · have hmin : min (batch.submitted + (([] : List (Feed V)).length + 1)) batch.configured =
              batch.submitted + 1 := by
            simp only [List.length_nil]
            omega
          rw [hmin, ← hcur]
          exact hfit
        · exact h
    · obtain ⟨i, hfault⟩ := submitVertex_fixed_outside run regs' hb hok.positive (by omega) output
      rw [safeRun_fault (hfeed.trans hfault)]
      refine iff_of_false (by simp) fun h => ?_
      have := hmono (show batch.submitted + 1 ≤ min (batch.submitted + (rest.length + 1)) batch.configured by omega)
      omega

theorem room_zero (vsOutputNum main : Nat) : room vsOutputNum main 0 = 0 := by simp [room]

theorem room_succ (b : VariablePrimitiveBackend) (count : Nat) :
    room b.vsOutputNum b.mainVertexNum (count + 1) = b.taken + room b.vsOutputNum (b.mainVertexNum - 1) count := by
  unfold room VariablePrimitiveBackend.taken
  cases b.mainVertexNum with
  | zero =>
    simp
    omega
  | succ main =>
    rw [if_pos (Nat.succ_ne_zero main), Nat.succ_min_succ, Nat.mul_succ, Nat.add_sub_cancel, Nat.add_sub_add_right]
    omega

theorem batchesFit_batch_iff {vsOutputNum main : Nat} {val : BitVec 16} {output : AttributeBuffer V}
    {rest : List (Feed V)} :
    BatchesFit vsOutputNum main (.indexed val output :: rest) ↔
      if val.toNat = 0 then rest = []
      else 1 + room vsOutputNum main (min val.toNat rest.length) ≤ 96 ∧
        BatchesFit vsOutputNum main (rest.drop val.toNat) := by
  have hzero : val.toNat = 0 ↔ val = 0 := by
    rw [← BitVec.toNat_inj]
    simp
  constructor
  · intro h
    cases h with
    | last => exact rfl
    | batch _ _ _ positive fits later =>
      rw [if_neg (mt hzero.mp positive)]
      exact ⟨fits, later⟩
  · intro h
    split at h
    · rename_i hval
      rw [hzero.mp hval, h]
      exact .last output
    · rename_i hval
      exact .batch val output rest (mt hzero.mpr hval) h.1 h.2

theorem safeRun_variable_iff {vs : Nat} (hvs : 0 < vs) (feeds : List (Feed V)) :
    (∀ {s : GeometryState V S} {b : VariablePrimitiveBackend} {batch : Batch},
      s.backend = some (.variablePrimitive b) → b.vsOutputNum = vs → b.needIndex = true →
        (s.SafeRun vertexNum run regs batch feeds ↔ BatchesFit vs (mainVertexNum regs) feeds)) ∧
    ∀ {s : GeometryState V S} {b : VariablePrimitiveBackend} {batch : Batch},
      s.backend = some (.variablePrimitive b) → b.vsOutputNum = vs → b.needIndex = false →
      b.totalVertexNum < 2 ^ 32 → batch.configured = batch.submitted + b.totalVertexNum → b.cur ≤ 96 →
        (s.SafeRun vertexNum run regs batch feeds ↔
          if b.totalVertexNum = 0 then feeds = []
          else b.cur + room vs b.mainVertexNum (min b.totalVertexNum feeds.length) ≤ 96 ∧
            BatchesFit vs (mainVertexNum regs) (feeds.drop b.totalVertexNum)) := by
  induction feeds with
  | nil =>
    refine ⟨fun _ _ _ => iff_of_true trivial .nil, fun {s b batch} _ _ _ _ _ hcur => iff_of_true trivial ?_⟩
    split
    · rfl
    · rw [List.length_nil, Nat.min_zero, room_zero, List.drop_nil]
      exact ⟨hcur, .nil⟩
  | cons f rest ih =>
    constructor
    · intro s b batch hb hnum hneed
      have hneeds : s.needIndexInput = true := by simp [needIndexInput, hb, Backend.needIndexInput, hneed]
      cases f with
      | plain regs' output =>
        have hfault : s.feed vertexNum run regs (.plain regs' output) = .error .assertion := by simp [feed, hneeds]
        rw [safeRun_fault hfault]
        exact iff_of_true rfl (.stopped regs' output rest)
      | indexed val output =>
        obtain ⟨s', hindex, hb'⟩ := submitIndex_variable vertexNum regs hb val.toNat
        have hfeed : s.feed vertexNum run regs (.indexed val output) = .ok (s', .index val.toNat) := by
          simp [feed, hneeds, hindex, Except.map]
        have hval := val.isLt
        rw [safeRun_index hfeed, batchesFit_batch_iff,
          ih.2 hb' hnum rfl (by dsimp only; omega) (by simp) (by dsimp only; omega)]
    · intro s b batch hb hnum hneed htotal hconfigured hcur
      have hneeds : s.needIndexInput = false := by simp [needIndexInput, hb, Backend.needIndexInput, hneed]
      obtain ⟨regs', output, hfeed⟩ := feed_vertex vertexNum run regs hneeds f
      have htaken : 0 < b.taken := by
        unfold VariablePrimitiveBackend.taken
        split <;> omega
      have hawaits : s.Awaits ↔ b.totalVertexNum ≠ 0 := by
        refine ⟨fun h => h b hb, fun h b' hb' => ?_⟩
        rw [hb] at hb'
        obtain rfl := Backend.variablePrimitive.inj (Option.some.inj hb')
        exact h
      by_cases hfit : b.cur + b.taken ≤ 96
      · obtain ⟨s', hsubmit, hb'⟩ := submitVertex_variable run regs' hb hfit output
        rw [safeRun_vertex (hfeed.trans hsubmit), hawaits]
        by_cases hzero : b.totalVertexNum = 0
        · rw [if_pos hzero]
          exact iff_of_false (fun h => h.1 hzero) (by simp)
        · have hpred : (b.totalVertexNum + (2 ^ 32 - 1)) % 2 ^ 32 = b.totalVertexNum - 1 := by omega
          have hmin : min b.totalVertexNum (f :: rest).length = min (b.totalVertexNum - 1) rest.length + 1 := by
            rw [List.length_cons]
            omega
          have hdrop : (f :: rest).drop b.totalVertexNum = rest.drop (b.totalVertexNum - 1) := by
            obtain ⟨k, hk⟩ := Nat.exists_eq_succ_of_ne_zero hzero
            rw [hk, List.drop_succ_cons, Nat.succ_eq_add_one, Nat.add_sub_cancel]
          have hroom := room_succ b (min (b.totalVertexNum - 1) rest.length)
          rw [hnum] at hroom
          rw [hpred] at hb' ⊢
          rw [if_neg hzero, hmin, hroom, hdrop]
          by_cases hfull : b.totalVertexNum - 1 = 0
          · have hend : batch.submitted + 1 = batch.configured := by omega
            rw [ih.1 hb' hnum (by simp [hfull]), hfull, Nat.zero_min, room_zero, List.drop_zero]
            exact ⟨fun h => ⟨hfit, h.2.2⟩, fun h => ⟨hzero, iff_of_true rfl hend, h.2⟩⟩
          · have hmore : ¬ batch.submitted + 1 = batch.configured := by omega
            rw [ih.2 hb' hnum (by simp [hfull, hneed]) (by dsimp only; omega)
              (by simp only [hfull, if_false]; omega) hfit, if_neg hfull]
            rw [Nat.add_assoc]
            exact ⟨fun h => h.2.2, fun h => ⟨hzero, iff_of_false hfull hmore, h⟩⟩
      · obtain ⟨i, hfault⟩ := submitVertex_variable_outside run regs' hb htaken (by omega) output
        rw [safeRun_fault (hfeed.trans hfault)]
        refine iff_of_false (by simp) fun h => ?_
        split at h
        · cases h
        · rename_i hzero
          have hmin : min b.totalVertexNum (f :: rest).length = min (b.totalVertexNum - 1) rest.length + 1 := by
            rw [List.length_cons]
            omega
          have hroom := room_succ b (min (b.totalVertexNum - 1) rest.length)
          rw [hnum] at hroom
          have := h.1
          rw [hmin, hroom] at this
          omega

theorem configured_pos (h : gsInputNum regs % vsOutputNum regs = 0) : 0 < gsInputNum regs / vsOutputNum regs := by
  have hpos : 0 < gsInputNum regs := Nat.succ_pos _
  exact Nat.div_pos (Nat.le_of_dvd hpos (Nat.dvd_of_mod_eq_zero h)) (Nat.succ_pos _)

theorem gsInputNum_le (regs : Reg → BitVec 32) : gsInputNum regs ≤ 16 := by
  have : (gsRegs regs).maxInputAttributeIndex < 2 ^ 4 := Nat.mod_lt _ (by decide)
  unfold gsInputNum
  omega

/-- What is sent after a reconfiguration is safe exactly if it fits. -/
theorem safeRun_iff_fits (vertexNum : Nat → V) (run : ShaderUnit V S → ShaderUnit V S) (regs : Reg → BitVec 32)
    (buffer : AttributeBuffer V) {s s₀ : GeometryState V S} (h : s.reconfigure regs buffer = .ok s₀)
    (feeds : List (Feed V)) :
    s₀.SafeRun vertexNum run regs ⟨configuredNum regs, 0⟩ feeds ↔ Fits regs feeds := by
  unfold reconfigure at h
  split at h
  · by_cases huse : useGs regs = 0
    · rw [if_pos huse] at h
      obtain rfl := Except.ok.inj h
      exact iff_of_true (safeRun_none feeds rfl) (.inl huse)
    · rw [if_neg huse] at h
      split at h
      · unfold Backend.create at h
        unfold Fits configuredNum
        split at h
        · rename_i hmode
          split at h
          · rename_i hasserts
            obtain rfl := Except.ok.inj h
            rw [hmode, if_pos rfl]
            refine iff_of_true (safeRun_point feeds rfl ⟨Nat.succ_pos _, rfl, ?_, gsInputNum_le regs, ?_⟩)
              (.inr trivial)
            · exact (Nat.mul_div_cancel' (Nat.dvd_of_mod_eq_zero hasserts.2.2)).symm
            · exact configured_pos hasserts.2.2
          · cases h
        · rename_i hmode
          split at h
          · obtain rfl := Except.ok.inj h
            rw [hmode, (safeRun_variable_iff (Nat.succ_pos _) feeds).1 rfl rfl rfl]
            exact ⟨.inr, fun h => h.resolve_left huse⟩
          · cases h
        · rename_i hmode
          split at h
          · obtain rfl := Except.ok.inj h
            have hok : FixedOk ⟨vsOutputNum regs, startIndex regs, startIndex regs,
                startIndex regs + vsOutputNum regs * fixedVertexNum regs⟩ ⟨fixedVertexNum regs, 0⟩ :=
              ⟨Nat.succ_pos _, rfl, rfl, Nat.succ_pos _⟩
            rw [hmode, if_neg (by decide), safeRun_fixed_iff feeds rfl hok]
            simp only [Nat.zero_add]
            exact ⟨.inr, fun h => h.resolve_left huse⟩
          · cases h
        · cases h
      · cases h
  · cases h

end Runs

/-- A geometry shader in the mode for fixed primitives of one vertex, from the uniform 96 on. -/
def fixedRegs : Reg → BitVec 32 := fun r =>
  if r = 0x229 then 2 else if r = 0x252 then 0x600002 else if r = 0x289 then 0x08000100 else 0

def idle : GeometryState Nat Unit := ⟨none, fun _ => 0, false, ⟨fun _ => 0, fun _ => 0, ()⟩, []⟩

theorem fixed_safeRun_iff_fits :
    ∃ s₀, idle.reconfigure fixedRegs (fun _ => 0) = .ok s₀ ∧
      (s₀.SafeRun (fun n => n) (fun u => u) fixedRegs ⟨configuredNum fixedRegs, 0⟩ [.plain fixedRegs fun _ => 1] ↔
        Fits fixedRegs [(.plain fixedRegs fun _ => 1 : Feed Nat)]) :=
  ⟨_, rfl, safeRun_iff_fits (fun n => n) (fun u => u) fixedRegs (fun _ => 0) (s := idle) rfl _⟩

/-- The first vertex is stored behind the uniforms. -/
theorem fixed_not_safeRun :
    ¬ ∀ s₀, idle.reconfigure fixedRegs (fun _ => 0) = .ok s₀ →
      s₀.SafeRun (fun n => n) (fun u => u) fixedRegs ⟨configuredNum fixedRegs, 0⟩ [.plain fixedRegs fun _ => 1] := by
  intro h
  have hfault : Fault.outOfBounds 96 96 = .assertion := (safeRun_fault rfl _ _).mp (h _ rfl)
  cases hfault

end GeometryState

end Pica

end SweepDSEmu.VideoCore
