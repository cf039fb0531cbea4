import Mathlib.Algebra.Field.Basic
import Mathlib.Data.List.FinRange
import SweepDSEmu.Lib.FinNumerals

/-!
# The shader interpreter

`RunInterpreter`, which executes the program of a shader unit.

* Instructions are given with their fields, as the decoder of instruction words has them.
* Numbers are those of a field with an order.  What else is computed with them is given by `Functions`.
* The debugger's records are left out.
-/

namespace SweepDSEmu.VideoCore.Interpreter

inductive SourceRegister where
  | input (index : Fin 16)
  | temporary (index : Fin 16)
  | floatUniform (index : Fin 96)
  | unknown
  deriving DecidableEq

/-- The five bits of a destination: an output below 16, and then a temporary. -/
abbrev DestRegister := Fin 32

def DestRegister.index (dest : DestRegister) : Fin 16 := Fin.ofNat 16 dest.val

structure SwizzlePattern where
  negateSrc1 : Bool
  negateSrc2 : Bool
  negateSrc3 : Bool
  src1Selector : Fin 4 → Fin 4
  src2Selector : Fin 4 → Fin 4
  src3Selector : Fin 4 → Fin 4
  destComponentEnabled : Fin 4 → Bool

inductive CompareOp where
  | equal
  | notEqual
  | lessThan
  | lessEqual
  | greaterThan
  | greaterEqual
  | unknown (op : Nat)
  deriving DecidableEq

inductive ArithmeticOp where
  | add | mul | flr | max | min
  | dp3 | dp4 | dph | dphi
  | rcp | rsq | mova | mov
  | sge | sgei | slt | slti
  | cmp | ex2 | lg2
  | other (id : Nat)
  deriving DecidableEq

inductive MultiplyAddOp where
  | mad
  | madi
  | other (id : Nat)
  deriving DecidableEq

/-- The fields of an arithmetic instruction.  Which bits are a source depends on `is_inverted`. -/
structure CommonFields where
  src1 : Bool → SourceRegister
  src2 : Bool → SourceRegister
  dest : DestRegister
  addressRegisterIndex : Fin 4
  compareOpX : CompareOp
  compareOpY : CompareOp
  operandDescId : Nat

structure MadFields where
  src1 : Bool → SourceRegister
  src2 : Bool → SourceRegister
  src3 : Bool → SourceRegister
  dest : DestRegister
  addressRegisterIndex : Fin 4
  operandDescId : Nat

inductive ConditionOp where
  | or
  | and
  | justX
  | justY
  deriving DecidableEq

structure FlowControl where
  op : ConditionOp := .or
  refx : Bool := false
  refy : Bool := false
  destOffset : Nat := 0
  numInstructions : Nat := 0
  boolUniformId : Fin 16 := 0
  intUniformId : Fin 4 := 0

inductive Instruction where
  | arithmetic (op : ArithmeticOp) (srcInversed : Bool) (common : CommonFields)
  | multiplyAdd (op : MultiplyAddOp) (mad : MadFields)
  | endProgram
  | jmpc (flow : FlowControl)
  | jmpu (flow : FlowControl)
  | call (flow : FlowControl)
  | callu (flow : FlowControl)
  | callc (flow : FlowControl)
  | nop
  | ifu (flow : FlowControl)
  | ifc (flow : FlowControl)
  | loop (flow : FlowControl)
  | break
  | breakc (flow : FlowControl)
  | emit
  | setemit (vertexId : Nat) (primEmit winding : Bool)
  | other (id : Nat)

abbrev Vec4 (F : Type) := Fin 4 → F

/-- What is computed with numbers, besides the operations of a field. -/
structure Functions (F : Type) where
  floor : F → F
  sqrt : F → F
  exp2 : F → F
  log2 : F → F
  /-- The conversion to an integer. -/
  truncate : F → Int

structure IntUniform where
  x : BitVec 8
  y : BitVec 8
  z : BitVec 8
  w : BitVec 8 := 0

structure ShaderSetup (F : Type) where
  f : Fin 96 → Vec4 F
  b : Fin 16 → Bool
  i : Fin 4 → IntUniform
  programCode : Nat → Instruction
  swizzleData : Nat → SwizzlePattern

structure GeometryEmitter (F E : Type) where
  emit : E → (Fin 16 → Vec4 F) → Option E
  setEmitState : E → Nat → Bool → Bool → E

structure ShaderUnit (F E : Type) where
  input : Fin 16 → Vec4 F
  temporary : Fin 16 → Vec4 F
  output : Fin 16 → Vec4 F
  addressRegisters : Fin 3 → Int
  conditionalCode : Fin 2 → Bool
  emitter : Option E

private theorem two_le_four : (2 : Nat) ≤ 4 := by decide

private theorem three_le_four : (3 : Nat) ≤ 4 := by decide

namespace ShaderUnit

variable {F E : Type}

def aL (u : ShaderUnit F E) : Int := u.addressRegisters 2

def setAL (u : ShaderUnit F E) (value : Int) : ShaderUnit F E :=
  { u with addressRegisters := Function.update u.addressRegisters 2 value }

@[simp] theorem aL_setAL (u : ShaderUnit F E) (value : Int) : (u.setAL value).aL = value := by simp [aL, setAL]

def writeDest (u : ShaderUnit F E) (swizzle : SwizzlePattern) (dest : DestRegister) (value : Vec4 F) :
    ShaderUnit F E :=
  let written (old : Vec4 F) : Vec4 F := fun k => if swizzle.destComponentEnabled k then value k else old k
  if dest.val < 0x10 then { u with output := Function.update u.output dest.index (written (u.output dest.index)) }
  else { u with temporary := Function.update u.temporary dest.index (written (u.temporary dest.index)) }

@[simp] theorem aL_writeDest (u : ShaderUnit F E) (swizzle : SwizzlePattern) (dest : DestRegister) (value : Vec4 F) :
    (u.writeDest swizzle dest value).aL = u.aL := by
  unfold writeDest aL
  split <;> rfl

/-- The destination of `MOVA` is the first two address registers. -/
def writeAddress (u : ShaderUnit F E) (swizzle : SwizzlePattern) (value : Fin 4 → Int) : ShaderUnit F E :=
  { u with
    addressRegisters := fun i =>
      let k : Fin 4 := i.castLE three_le_four
      if i.val < 2 ∧ swizzle.destComponentEnabled k then value k else u.addressRegisters i }

@[simp] theorem aL_writeAddress (u : ShaderUnit F E) (swizzle : SwizzlePattern) (value : Fin 4 → Int) :
    (u.writeAddress swizzle value).aL = u.aL := by
  simp [writeAddress, aL]

end ShaderUnit

section Arithmetic

variable {F E : Type} [Field F] [LinearOrder F]

def lookupSourceRegister (setup : ShaderSetup F) (u : ShaderUnit F E) (reg : SourceRegister)
    (addressRegisterIndex : Fin 4) : Vec4 F :=
  match reg with
  | .input index => u.input index
  | .temporary index => u.temporary index
  | .floatUniform index =>
    if addressRegisterIndex ≠ 0 then
      let offset := u.addressRegisters (Fin.ofNat 3 (addressRegisterIndex.val - 1))
      let offset := if offset < -128 ∨ offset > 127 then 0 else offset
      let index := ((index.val : Int) + offset) % 128
      if h : index.toNat < 96 then setup.f ⟨index.toNat, h⟩ else fun _ => 1
    else setup.f index
  | .unknown => fun _ => 0

def operand (selector : Fin 4 → Fin 4) (negate : Bool) (reg : Vec4 F) : Vec4 F :=
  fun k => if negate then -reg (selector k) else reg (selector k)

def innerProduct (numComponents : Nat) (a b : Vec4 F) : F :=
  ((List.finRange 4).take numComponents).foldl (fun sum k => sum + a k * b k) 0

def CommonFields.sources (common : CommonFields) (setup : ShaderSetup F) (u : ShaderUnit F E) (isInverted : Bool) :
    Vec4 F × Vec4 F :=
  let swizzle := setup.swizzleData common.operandDescId
  let index := common.addressRegisterIndex
  (operand swizzle.src1Selector swizzle.negateSrc1
      (lookupSourceRegister setup u (common.src1 isInverted) (if isInverted then 0 else index)),
    operand swizzle.src2Selector swizzle.negateSrc2
      (lookupSourceRegister setup u (common.src2 isInverted) (if isInverted then index else 0)))

/-- A condition of `CMP`; with an unknown mode the code stays as it was. -/
def CompareOp.eval (op : CompareOp) (a b : F) (old : Bool) : Bool :=
  match op with
  | .equal => a = b
  | .notEqual => a ≠ b
  | .lessThan => a < b
  | .lessEqual => a ≤ b
  | .greaterThan => a > b
  | .greaterEqual => a ≥ b
  | .unknown _ => old

def arithmetic (fn : Functions F) (setup : ShaderSetup F) (op : ArithmeticOp) (isInverted : Bool)
    (common : CommonFields) (u : ShaderUnit F E) : ShaderUnit F E :=
  let swizzle := setup.swizzleData common.operandDescId
  let src1 := (common.sources setup u isInverted).1
  let src2 := (common.sources setup u isInverted).2
  let write (value : Vec4 F) := u.writeDest swizzle common.dest value
  match op with
  | .add => write fun k => src1 k + src2 k
  | .mul => write fun k => src1 k * src2 k
  | .flr => write fun k => fn.floor (src1 k)
  | .max => write fun k => if src1 k > src2 k then src1 k else src2 k
  | .min => write fun k => if src1 k < src2 k then src1 k else src2 k
  | .dp3 => write fun _ => innerProduct 3 src1 src2
  | .dp4 => write fun _ => innerProduct 4 src1 src2
  | .dph | .dphi => write fun _ => innerProduct 4 (Function.update src1 3 1) src2
  | .rcp => write fun _ => 1 / src1 0
  | .rsq => write fun _ => 1 / fn.sqrt (src1 0)
  | .mova => u.writeAddress swizzle fun k => fn.truncate (src1 k)
  | .mov => write src1
  | .sge | .sgei => write fun k => if src1 k ≥ src2 k then 1 else 0
  | .slt | .slti => write fun k => if src1 k < src2 k then 1 else 0
  | .cmp =>
    { u with
      conditionalCode := fun i =>
        let k : Fin 4 := i.castLE two_le_four
        (if i = 0 then common.compareOpX else common.compareOpY).eval (src1 k) (src2 k) (u.conditionalCode i) }
  | .ex2 => write fun _ => fn.exp2 (src1 0)
  | .lg2 => write fun _ => fn.log2 (src1 0)
  | .other _ => u

/-- The operands of a multiply-add instruction. -/
def MadFields.sources (mad : MadFields) (setup : ShaderSetup F) (u : ShaderUnit F E) (isInverted : Bool) :
    Vec4 F × Vec4 F × Vec4 F :=
  let swizzle := setup.swizzleData mad.operandDescId
  let index := mad.addressRegisterIndex
  (operand swizzle.src1Selector swizzle.negateSrc1 (lookupSourceRegister setup u (mad.src1 isInverted) 0),
    operand swizzle.src2Selector swizzle.negateSrc2
      (lookupSourceRegister setup u (mad.src2 isInverted) (if isInverted then 0 else index)),
    operand swizzle.src3Selector swizzle.negateSrc3
      (lookupSourceRegister setup u (mad.src3 isInverted) (if isInverted then index else 0)))

def multiplyAdd (setup : ShaderSetup F) (op : MultiplyAddOp) (mad : MadFields) (u : ShaderUnit F E) :
    ShaderUnit F E :=
  match op with
  | .other _ => u
  | .mad | .madi =>
    let isInverted : Bool := op = .madi
    let srcs := mad.sources setup u isInverted
    u.writeDest (setup.swizzleData mad.operandDescId) mad.dest fun k => srcs.1 k * srcs.2.1 k + srcs.2.2 k

theorem aL_arithmetic (fn : Functions F) (setup : ShaderSetup F) (op : ArithmeticOp) (isInverted : Bool)
    (common : CommonFields) (u : ShaderUnit F E) : (arithmetic fn setup op isInverted common u).aL = u.aL := by
  cases op <;> simp [arithmetic]
  rfl

omit [LinearOrder F] in
theorem aL_multiplyAdd (setup : ShaderSetup F) (op : MultiplyAddOp) (mad : MadFields) (u : ShaderUnit F E) :
    (multiplyAdd setup op mad u).aL = u.aL := by
  cases op <;> simp [multiplyAdd]

end Arithmetic

structure IfStackElement where
  elseAddress : Nat
  endAddress : Nat

structure CallStackElement where
  endAddress : Nat
  returnAddress : Nat

structure LoopStackElement where
  entryAddress : Nat
  endAddress : Nat
  loopDowncounter : BitVec 8
  addressIncrement : BitVec 8
  previousAL : BitVec 8

/-- The variables of `RunInterpreter`, the back of a stack first. -/
structure State (F E : Type) where
  unit : ShaderUnit F E
  programCounter : Nat
  ifStack : List IfStackElement := []
  callStack : List CallStackElement := []
  loopStack : List LoopStackElement := []

/-- `push_back` of a circular buffer; the oldest element goes when it is full. -/
def pushBack {α : Type} (capacity : Nat) (stack : List α) (element : α) : List α := (element :: stack).take capacity

theorem pushBack_of_lt {α : Type} {capacity : Nat} {stack : List α} (h : stack.length < capacity) (element : α) :
    pushBack capacity stack element = element :: stack :=
  List.take_of_length_le h

/-- What an instruction does, its scopes not closed yet. -/
structure Executed (F E : Type) where
  state : State F E
  shouldStop : Bool := false
  isBreak : Bool := false

section Flow

variable {F E : Type}

def evaluateCondition (u : ShaderUnit F E) (flow : FlowControl) : Bool :=
  let resultX : Bool := flow.refx = u.conditionalCode 0
  let resultY : Bool := flow.refy = u.conditionalCode 1
  match flow.op with
  | .or => resultX || resultY
  | .and => resultX && resultY
  | .justX => resultX
  | .justY => resultY

namespace State

def doIf (s : State F E) (flow : FlowControl) (condition : Bool) : State F E :=
  if condition then
    let element : IfStackElement := ⟨flow.destOffset, flow.destOffset + flow.numInstructions⟩
    { s with ifStack := pushBack 8 s.ifStack element, programCounter := s.programCounter + 1 }
  else { s with programCounter := flow.destOffset }

def doCall (s : State F E) (flow : FlowControl) : State F E :=
  let element : CallStackElement := ⟨flow.destOffset + flow.numInstructions, s.programCounter + 1⟩
  { s with callStack := pushBack 4 s.callStack element, programCounter := flow.destOffset }

def doLoop (s : State F E) (flow : FlowControl) (loopParam : IntUniform) : State F E :=
  let previousAL := BitVec.ofInt 8 s.unit.aL
  let element : LoopStackElement :=
    ⟨s.programCounter + 1, flow.destOffset + 1, loopParam.x, loopParam.z, previousAL⟩
  { s with
    loopStack := pushBack 4 s.loopStack element
    unit := s.unit.setAL loopParam.y.toNat
    programCounter := s.programCounter + 1 }

def goOn (s : State F E) : State F E := { s with programCounter := s.programCounter + 1 }

end State

variable [Field F] [LinearOrder F]

def fetch (setup : ShaderSetup F) (s : State F E) : Instruction :=
  if s.programCounter < 4095 then setup.programCode s.programCounter else .endProgram

/-- The switch over the instruction, and `++program_counter`. -/
def execute (fn : Functions F) (g : GeometryEmitter F E) (setup : ShaderSetup F) (s : State F E) :
    Instruction → Option (Executed F E)
  | .arithmetic op srcInversed common =>
    some { state := { s.goOn with unit := arithmetic fn setup op srcInversed common s.unit } }
  | .multiplyAdd op mad => some { state := { s.goOn with unit := multiplyAdd setup op mad s.unit } }
  | .endProgram => some { state := s.goOn, shouldStop := true }
  | .jmpc flow =>
    some { state := if evaluateCondition s.unit flow then { s with programCounter := flow.destOffset } else s.goOn }
  | .jmpu flow =>
    let jumps := setup.b flow.boolUniformId = !(flow.numInstructions % 2 = 1)
    some { state := if jumps then { s with programCounter := flow.destOffset } else s.goOn }
  | .call flow => some { state := s.doCall flow }
  | .callu flow => some { state := if setup.b flow.boolUniformId then s.doCall flow else s.goOn }
  | .callc flow => some { state := if evaluateCondition s.unit flow then s.doCall flow else s.goOn }
  | .nop => some { state := s.goOn }
  | .ifu flow => some { state := s.doIf flow (setup.b flow.boolUniformId) }
  | .ifc flow => some { state := s.doIf flow (evaluateCondition s.unit flow) }
  | .loop flow =>
    let loopParam := setup.i flow.intUniformId
    some { state := { s with unit := s.unit.setAL loopParam.y.toNat }.doLoop flow loopParam }
  | .break => some { state := s.goOn, isBreak := true }
  | .breakc flow => some { state := s.goOn, isBreak := evaluateCondition s.unit flow }
  | .emit =>
    match s.unit.emitter with
    | none => none
    | some emitter =>
      (g.emit emitter s.unit.output).map fun emitter =>
        { state := { s.goOn with unit := { s.unit with emitter := some emitter } } }
  | .setemit vertexId primEmit winding =>
    match s.unit.emitter with
    | none => none
    | some emitter =>
      some { state := { s.goOn with
        unit := { s.unit with emitter := some (g.setEmitState emitter vertexId primEmit winding) } } }
  | .other _ => some { state := s.goOn }

/-- The loop over the `CALL` scopes, by the turns that are left.  The fourth one does not update the program counter. -/
def closeCalls : Nat → Nat → Nat → List CallStackElement → Nat × List CallStackElement
  | 0, _, programCounter, callStack => (programCounter, callStack)
  | _ + 1, _, programCounter, [] => (programCounter, [])
  | turns + 1, nextProgramCounter, programCounter, call :: rest =>
    if call.endAddress = nextProgramCounter then
      if turns = 0 then (programCounter, rest) else closeCalls turns call.returnAddress call.returnAddress rest
    else (programCounter, call :: rest)

namespace State

def closeCallScopes (oldProgramCounter : Nat) (s : State F E) : State F E :=
  let closed := closeCalls 4 (oldProgramCounter + 1) s.programCounter s.callStack
  { s with programCounter := closed.1, callStack := closed.2 }

def closeIfScope (oldProgramCounter : Nat) (s : State F E) : State F E :=
  match s.ifStack with
  | [] => s
  | scope :: rest =>
    if scope.elseAddress = oldProgramCounter + 1 then { s with programCounter := scope.endAddress, ifStack := rest }
    else s

def closeLoopScope (oldProgramCounter : Nat) (isBreak : Bool) (s : State F E) : State F E :=
  match s.loopStack with
  | [] => s
  | loop :: rest =>
    if loop.endAddress = oldProgramCounter + 1 ∨ isBreak then
      let unit := s.unit.setAL (s.unit.aL + loop.addressIncrement.toNat)
      if !isBreak ∧ loop.loopDowncounter ≠ 0 then
        { s with
          unit := unit
          programCounter := loop.entryAddress
          loopStack := { loop with loopDowncounter := loop.loopDowncounter - 1 } :: rest }
      else
        -- only restore previous value if there is a surrounding LOOP scope
        { s with
          unit := if rest ≠ [] then unit.setAL loop.previousAL.toNat else unit
          programCounter := loop.endAddress
          loopStack := rest }
    else s

end State

def step (fn : Functions F) (g : GeometryEmitter F E) (setup : ShaderSetup F) (s : State F E) :
    Option (State F E × Bool) :=
  (execute fn g setup s (fetch setup s)).map fun e =>
    (((e.state.closeCallScopes s.programCounter).closeIfScope s.programCounter).closeLoopScope s.programCounter
      e.isBreak, e.shouldStop)

end Flow

end SweepDSEmu.VideoCore.Interpreter
