import SweepDSEmu.Lib.VectorExpr
import SweepDSEmu.VideoCore.ShaderInterpreter
import Mathlib.Tactic.Ring

/-!
# Translation of shader instructions

What `CompileInstr` writes for the instructions that are not for flow control, and what it does, compared with what the
interpreter does for them.

* Lines are given as expressions, not as text.  `get_offset_register` is a variable that is read.
* An output that the getter has no name for is not written.
-/

namespace SweepDSEmu.VideoCore.Interpreter

open VectorExpr

/-- What a generated shader reads and writes. -/
inductive Variable : Kind → Nat → Type where
  | input (index : Fin 16) : Variable .float 4
  | tmp (index : Fin 16) : Variable .float 4
  | output (index : Fin 16) : Variable .float 4
  | uniform (index : Fin 96) : Variable .float 4
  /-- `get_offset_register`, with a component of the address registers -/
  | offsetRegister (index : Fin 96) (component : Fin 3) : Variable .float 4
  /-- The first two components of the address registers. -/
  | addressRegisters : Variable .int 2
  | conditionalCode : Variable .bool 2

abbrev Code (κ : Kind) (n : Nat) := Expr Variable κ n

inductive Line where
  /-- The components of the mask are assigned. -/
  | assign {κ : Kind} {d m : Nat} (dest : Variable κ d) (mask : List (Fin d)) (value : Code κ m)
    (typed : mask.length = m)
  /-- `if (condition)`, for the next line -/
  | onlyIf (condition : Code .bool 1)

inductive CompileFailure where
  | decompileFail (what : String)
  | unreachable
  /-- The instruction is one for flow control. -/
  | flowControl

/-- The first components of a vector, as in `vec3(e)`. -/
def firstOf {κ : Kind} (m : Nat) {n : Nat} (e : Code κ n) (h : m ≤ n := by decide) : Code κ m :=
  .swizzle e (Fin.castLE h)

def componentOf {κ : Kind} {n : Nat} (e : Code κ n) (k : Fin n) : Code κ 1 := .swizzle e fun _ => k

def getSourceRegister (reg : SourceRegister) (addressRegisterIndex : Fin 4) : Except CompileFailure (Code .float 4) :=
  match reg with
  | .input index => .ok (.var (.input index))
  | .temporary index => .ok (.var (.tmp index))
  | .floatUniform index =>
    if addressRegisterIndex ≠ 0 then
      .ok (.var (.offsetRegister index (Fin.ofNat 3 (addressRegisterIndex.val - 1))))
    else .ok (.var (.uniform index))
  | .unknown => .error .unreachable

def source (selector : Fin 4 → Fin 4) (negate : Bool) (reg : SourceRegister) (addressRegisterIndex : Fin 4) :
    Except CompileFailure (Code .float 4) :=
  (getSourceRegister reg addressRegisterIndex).map fun e =>
    if negate then .unary .neg (.swizzle e selector) else .swizzle e selector

def getDestRegister (outputNamed : Fin 16 → Bool) (dest : DestRegister) : Option (Variable .float 4) :=
  if dest.val < 0x10 then if outputNamed dest.index then some (.output dest.index) else none
  else some (.tmp dest.index)

/-- A value for a destination with `d` components: as many, or one for all of them. -/
inductive Value (κ : Kind) (d : Nat) where
  | vector (e : Code κ d)
  | scalar (e : Code κ 1)

def setDest {κ : Kind} {d : Nat} (enabled : Fin d → Bool) (reg : Option (Variable κ d)) (value : Value κ d) :
    List Line :=
  match reg with
  | none => []
  | some reg =>
    if (maskOf enabled).length = 0 then []
    else
      match value with
      | .scalar e =>
        if h : (maskOf enabled).length = 1 then [.assign reg (maskOf enabled) e h]
        else [.assign reg (maskOf enabled) (.splat (maskOf enabled).length e) rfl]
      | .vector e =>
        if h : (maskOf enabled).length = d then [.assign reg (maskOf enabled) e h]
        else [.assign reg (maskOf enabled) (.swizzle e (maskOf enabled).get) rfl]

/-- The function `sanitize_mul` of the generated shader. -/
def sanitizedMul {n : Nat} (lhs rhs : Code .float n) : Code .float n :=
  let product : Code .float n := .binary .mul lhs rhs
  .mix product (.mix (.mix (.zeros n) product (.isnan rhs)) product (.isnan lhs)) (.isnan product)

def CompareOp.comparison : CompareOp → Option Comparison
  | .equal => some .equal
  | .notEqual => some .notEqual
  | .lessThan => some .lessThan
  | .lessEqual => some .lessThanEqual
  | .greaterThan => some .greaterThan
  | .greaterEqual => some .greaterThanEqual
  | .unknown _ => none

section Generator

variable (sanitizeMul : Bool) (outputNamed : Fin 16 → Bool) (swizzleData : Nat → SwizzlePattern)

def arithmeticLines (op : ArithmeticOp) (common : CommonFields) (src1 src2 : Code .float 4) :
    Except CompileFailure (List Line) :=
  let enabled := (swizzleData common.operandDescId).destComponentEnabled
  let write (value : Value .float 4) := setDest enabled (getDestRegister outputNamed common.dest) value
  match op with
  | .add => .ok (write (.vector (.binary .add src1 src2)))
  | .mul => .ok (write (.vector (if sanitizeMul then sanitizedMul src1 src2 else .binary .mul src1 src2)))
  | .flr => .ok (write (.vector (.unary .floor src1)))
  | .max =>
    .ok (write (.vector
      (if sanitizeMul then .mix src2 src1 (.compare .greaterThan src1 src2) else .binary .max src1 src2)))
  | .min =>
    .ok (write (.vector
      (if sanitizeMul then .mix src2 src1 (.compare .lessThan src1 src2) else .binary .min src1 src2)))
  | .dp3 =>
    .ok (write (.scalar
      (if sanitizeMul then .dot (firstOf 3 (sanitizedMul src1 src2)) (.ones 3)
      else .dot (firstOf 3 src1) (firstOf 3 src2))))
  | .dp4 =>
    .ok (write (.scalar
      (if sanitizeMul then .dot (sanitizedMul src1 src2) (.ones 4) else .dot src1 src2)))
  | .dph | .dphi =>
    .ok (write (.scalar
      (if sanitizeMul then .dot (sanitizedMul (.withOne (firstOf 3 src1)) src2) (.ones 4) else .dot src1 src2)))
  | .rcp =>
    let guard : List Line :=
      if sanitizeMul then [] else [.onlyIf (.compare .notEqual (componentOf src1 0) (.zeros 1))]
    .ok (guard ++ write (.scalar (.binary .div (.ones 1) (componentOf src1 0))))
  | .rsq =>
    let guard : List Line :=
      if sanitizeMul then [] else [.onlyIf (.compare .greaterThan (componentOf src1 0) (.zeros 1))]
    .ok (guard ++ write (.scalar (.unary .inversesqrt (componentOf src1 0))))
  | .mova =>
    .ok (setDest (fun k : Fin 2 => enabled (k.castLE (by decide))) (some .addressRegisters)
      (.vector (firstOf 2 (.toInt src1))))
  | .mov => .ok (write (.vector src1))
  | .sge | .sgei => .ok (write (.vector (.ofBool (.compare .greaterThanEqual src1 src2))))
  | .slt | .slti => .ok (write (.vector (.ofBool (.compare .lessThan src1 src2))))
  | .cmp =>
    match common.compareOpX.comparison, common.compareOpY.comparison with
    | some x, some y =>
      if x ≠ y then
        .ok [.assign .conditionalCode [0] (.compare x (componentOf src1 0) (componentOf src2 0)) rfl,
          .assign .conditionalCode [1] (.compare y (componentOf src1 1) (componentOf src2 1)) rfl]
      else .ok [.assign .conditionalCode [0, 1] (.compare x (firstOf 2 src1) (firstOf 2 src2)) rfl]
    | _, _ => .ok []
  | .ex2 => .ok (write (.scalar (.unary .exp2 (componentOf src1 0))))
  | .lg2 => .ok (write (.scalar (.unary .log2 (componentOf src1 0))))
  | .other _ => .error (.decompileFail "Unhandled instruction")

def compileArithmetic (op : ArithmeticOp) (isInverted : Bool) (common : CommonFields) :
    Except CompileFailure (List Line) := do
  let swizzle := swizzleData common.operandDescId
  let index := common.addressRegisterIndex
  let src1 ← source swizzle.src1Selector swizzle.negateSrc1 (common.src1 isInverted) (if isInverted then 0 else index)
  let src2 ← source swizzle.src2Selector swizzle.negateSrc2 (common.src2 isInverted) (if isInverted then index else 0)
  arithmeticLines sanitizeMul outputNamed swizzleData op common src1 src2

def compileMultiplyAdd (op : MultiplyAddOp) (mad : MadFields) : Except CompileFailure (List Line) :=
  match op with
  | .other _ => .error (.decompileFail "Unhandled instruction")
  | .mad | .madi => do
    let isInverted : Bool := op = .madi
    let swizzle := swizzleData mad.operandDescId
    let index := mad.addressRegisterIndex
    let src1 ← source swizzle.src1Selector swizzle.negateSrc1 (mad.src1 isInverted) 0
    let src2 ← source swizzle.src2Selector swizzle.negateSrc2 (mad.src2 isInverted) (if isInverted then 0 else index)
    let src3 ← source swizzle.src3Selector swizzle.negateSrc3 (mad.src3 isInverted) (if isInverted then index else 0)
    let product := if sanitizeMul then sanitizedMul src1 src2 else .binary .mul src1 src2
    return setDest swizzle.destComponentEnabled (getDestRegister outputNamed mad.dest)
      (.vector (.binary .add product src3))

def compileInstr : Instruction → Except CompileFailure (List Line)
  | .arithmetic op srcInversed common => compileArithmetic sanitizeMul outputNamed swizzleData op srcInversed common
  | .multiplyAdd op mad => compileMultiplyAdd sanitizeMul outputNamed swizzleData op mad
  | .nop | .emit | .setemit _ _ _ => .ok []
  | .other _ => .error (.decompileFail "Unhandled instruction")
  | _ => .error .flowControl

end Generator

section Lines

variable {F E : Type} [Field F] [LinearOrder F]

def builtins (fn : Functions F) : Builtins F where
  floor := fn.floor
  inversesqrt := fun x => 1 / fn.sqrt x
  exp2 := fn.exp2
  log2 := fn.log2
  toInt := fn.truncate

def getOffsetRegister (setup : ShaderSetup F) (baseIndex : Nat) (offset : Int) : Vec4 F :=
  let fixedOffset := if offset ≥ -128 ∧ offset ≤ 127 then offset else 0
  let index := ((baseIndex + fixedOffset) % 128).toNat
  if h : index < 96 then setup.f ⟨index, h⟩ else fun _ => 1

def env (setup : ShaderSetup F) (u : ShaderUnit F E) : ∀ κ n, Variable κ n → Fin n → κ.Carrier F
  | _, _, .input index => u.input index
  | _, _, .tmp index => u.temporary index
  | _, _, .output index => u.output index
  | _, _, .uniform index => setup.f index
  | _, _, .offsetRegister index component => getOffsetRegister setup index.val (u.addressRegisters component)
  | _, _, .addressRegisters => fun k => u.addressRegisters (k.castLE (by decide))
  | _, _, .conditionalCode => u.conditionalCode

namespace ShaderUnit

/-- A variable gets a new value.  What is not assigned to stays. -/
def modify (u : ShaderUnit F E) : {κ : Kind} → {d : Nat} → Variable κ d →
    ((Fin d → κ.Carrier F) → Fin d → κ.Carrier F) → ShaderUnit F E
  | _, _, .tmp index, change => { u with temporary := Function.update u.temporary index (change (u.temporary index)) }
  | _, _, .output index, change => { u with output := Function.update u.output index (change (u.output index)) }
  | _, _, .addressRegisters, change =>
    let changed := change fun k => u.addressRegisters (k.castLE (by decide))
    { u with addressRegisters := fun i => if h : i.val < 2 then changed ⟨i.val, h⟩ else u.addressRegisters i }
  | _, _, .conditionalCode, change => { u with conditionalCode := change u.conditionalCode }
  | _, _, .input _, _ | _, _, .uniform _, _ | _, _, .offsetRegister _ _, _ => u

end ShaderUnit

variable (fn : Functions F) (setup : ShaderSetup F)

abbrev evalCode (u : ShaderUnit F E) {κ : Kind} {n : Nat} (e : Code κ n) : Fin n → κ.Carrier F :=
  e.eval (builtins fn) (env setup u)

def runLines : List Line → ShaderUnit F E → ShaderUnit F E
  | [], u => u
  | .assign dest mask value typed :: rest, u =>
    runLines rest (u.modify dest (writeMasked mask typed (evalCode fn setup u value)))
  | .onlyIf _ :: [], u => u
  | .onlyIf condition :: line :: rest, u =>
    if evalCode fn setup u condition 0 = true then runLines (line :: rest) u else runLines rest u

namespace ShaderUnit

variable {κ : Kind} {d : Nat}

omit [Field F] [LinearOrder F] in
theorem modify_self (u : ShaderUnit F E) (dest : Variable κ d) : u.modify dest (fun old => old) = u := by
  cases dest with
  | addressRegisters =>
    have hsame : (fun i : Fin 3 =>
        if h : i.val < 2 then u.addressRegisters (Fin.castLE (by decide) (⟨i.val, h⟩ : Fin 2))
        else u.addressRegisters i) = u.addressRegisters := by
      funext i
      split <;> rfl
    exact congrArg (fun registers => { u with addressRegisters := registers }) hsame
  | _ => simp [modify]

omit [Field F] [LinearOrder F] in
theorem writeDest_eq_modify (u : ShaderUnit F E) (swizzle : SwizzlePattern) (dest : DestRegister) (value : Vec4 F) :
    u.writeDest swizzle dest value =
      u.modify (if dest.val < 0x10 then .output dest.index else .tmp dest.index)
        fun old k => if swizzle.destComponentEnabled k then value k else old k := by
  unfold writeDest
  split <;> rfl

end ShaderUnit

def Value.eval (u : ShaderUnit F E) {κ : Kind} {d : Nat} : Value κ d → Fin d → κ.Carrier F
  | .vector e => evalCode fn setup u e
  | .scalar e => fun _ => evalCode fn setup u e 0

theorem runLines_setDest (u : ShaderUnit F E) {κ : Kind} {d : Nat} (enabled : Fin d → Bool) (reg : Variable κ d)
    (value : Value κ d) :
    runLines fn setup (setDest enabled (some reg) value) u =
      u.modify reg fun old k => if enabled k then value.eval fn setup u k else old k := by
  have hmask (new : Fin d → κ.Carrier F) (old : Fin d → κ.Carrier F) :
      (fun k => if k ∈ maskOf enabled then new k else old k) = fun k => if enabled k then new k else old k := by
    simp only [mem_maskOf]
  unfold setDest
  dsimp only
  split
  · rename_i hzero
    have hnone : ∀ k, enabled k = false := by
      intro k
      have hk : k ∉ maskOf enabled := by
        rw [List.length_eq_zero_iff.mp hzero]
        exact List.not_mem_nil
      simpa [mem_maskOf] using hk
    simp only [runLines, hnone, Bool.false_eq_true, if_false]
    exact (u.modify_self reg).symm
  · cases value with
    | scalar e =>
      dsimp only
      split
      · rename_i hone
        simp only [runLines, Value.eval]
        congr 1
        funext old
        rw [← hmask]
        funext k
        unfold writeMasked
        split
        · congr 1
          exact Subsingleton.elim _ _
        · rfl
      · simp only [runLines, Value.eval, evalCode, Expr.eval]
        congr 1
        funext old
        rw [← hmask]
        rfl
    | vector e =>
      dsimp only
      split
      · rename_i hall
        simp only [runLines, Value.eval]
        congr 1
        funext old
        rw [writeMasked_all hall, ← hmask]
        have hmem : ∀ k, k ∈ maskOf enabled := fun k => maskOf_eq_finRange hall ▸ List.mem_finRange k
        simp only [hmem, if_true]
      · simp only [runLines, Value.eval, evalCode, Expr.eval]
        congr 1
        funext old
        rw [← hmask]
        exact writeMasked_selected (maskOf enabled) rfl _ old

omit [LinearOrder F] in
theorem getOffsetRegister_eq (u : ShaderUnit F E) (index : Fin 96) {addressRegisterIndex : Fin 4}
    (h : addressRegisterIndex ≠ 0) :
    getOffsetRegister setup index.val (u.addressRegisters (Fin.ofNat 3 (addressRegisterIndex.val - 1))) =
      lookupSourceRegister setup u (.floatUniform index) addressRegisterIndex := by
  unfold getOffsetRegister lookupSourceRegister
  generalize u.addressRegisters (Fin.ofNat 3 (addressRegisterIndex.val - 1)) = offset
  have hfixed : (if offset ≥ -128 ∧ offset ≤ 127 then offset else 0) =
      if offset < -128 ∨ offset > 127 then 0 else offset := by
    split <;> split <;> first | rfl | omega
  simp only [h, ne_eq, not_false_eq_true, if_true, hfixed]

theorem source_eval {selector : Fin 4 → Fin 4} {negate : Bool} {reg : SourceRegister} {index : Fin 4}
    {e : Code .float 4} (h : source selector negate reg index = .ok e) (u : ShaderUnit F E) :
    evalCode fn setup u e = operand selector negate (lookupSourceRegister setup u reg index) := by
  have hneg (e : Code .float 4) (value : Vec4 F) (he : evalCode fn setup u e = value) :
      evalCode fn setup u (if negate then Expr.unary .neg (.swizzle e selector) else .swizzle e selector) =
        operand selector negate value := by
    subst he
    cases negate <;> rfl
  unfold source at h
  cases reg with
  | input i | temporary i =>
    obtain rfl := Except.ok.inj h
    exact hneg _ _ rfl
  | floatUniform i =>
    by_cases hindex : index = 0
    · simp only [getSourceRegister, hindex, ne_eq, not_true_eq_false, if_false] at h
      obtain rfl := Except.ok.inj h
      rw [hindex]
      exact hneg _ _ rfl
    · simp only [getSourceRegister, hindex, ne_eq, not_false_eq_true, if_true] at h
      obtain rfl := Except.ok.inj h
      exact hneg _ _ (getOffsetRegister_eq setup u i hindex)
  | unknown => cases h

variable (sanitizeMul : Bool) (outputNamed : Fin 16 → Bool)

structure SameRegisters (u u' : ShaderUnit F E) : Prop where
  temporary : u.temporary = u'.temporary
  output : ∀ i, outputNamed i = true → u.output i = u'.output i
  addressRegisters : u.addressRegisters = u'.addressRegisters
  conditionalCode : u.conditionalCode = u'.conditionalCode

def Written (dest : DestRegister) : Prop := dest.val < 0x10 → outputNamed dest.index = true

theorem sameRegisters_setDest (u : ShaderUnit F E) (swizzle : SwizzlePattern) (dest : DestRegister)
    (value : Value .float 4) (expected : Vec4 F) :
    SameRegisters outputNamed
        (runLines fn setup (setDest swizzle.destComponentEnabled (getDestRegister outputNamed dest) value) u)
        (u.writeDest swizzle dest expected) ↔
      (Written outputNamed dest →
        ∀ k, swizzle.destComponentEnabled k = true → value.eval fn setup u k = expected k) := by
  have hmask (old : Vec4 F) :
      ((fun k => if swizzle.destComponentEnabled k then value.eval fn setup u k else old k) =
        fun k => if swizzle.destComponentEnabled k then expected k else old k) ↔
      ∀ k, swizzle.destComponentEnabled k = true → value.eval fn setup u k = expected k := by
    constructor
    · intro h k hk
      simpa [hk] using congrFun h k
    · intro h
      funext k
      split
      · exact h k ‹_›
      · rfl
  rw [ShaderUnit.writeDest_eq_modify]
  by_cases houtput : dest.val < 0x10
  · by_cases hnamed : outputNamed dest.index = true
    · have hreg : getDestRegister outputNamed dest = some (.output dest.index) := by
        simp [getDestRegister, houtput, hnamed]
      rw [hreg, runLines_setDest, if_pos houtput, ← hmask (u.output dest.index)]
      constructor
      · intro h _
        simpa [ShaderUnit.modify] using h.output dest.index hnamed
      · intro h
        refine ⟨rfl, fun i _ => ?_, rfl, rfl⟩
        simp only [ShaderUnit.modify]
        rw [h fun _ => hnamed]
    · have hreg : getDestRegister outputNamed dest = none := by simp [getDestRegister, houtput, hnamed]
      rw [hreg, if_pos houtput]
      refine iff_of_true ⟨rfl, fun i hi => ?_, rfl, rfl⟩ fun h => absurd (h houtput) hnamed
      have hne : i ≠ dest.index := by
        rintro rfl
        exact hnamed hi
      simp [ShaderUnit.modify, setDest, runLines, hne]
  · have hreg : getDestRegister outputNamed dest = some (.tmp dest.index) := by
      simp [getDestRegister, houtput]
    rw [hreg, runLines_setDest, if_neg houtput, ← hmask (u.temporary dest.index)]
    constructor
    · intro h _
      simpa [ShaderUnit.modify] using congrFun h.temporary dest.index
    · intro h
      refine ⟨?_, fun _ _ => rfl, rfl, rfl⟩
      simp only [ShaderUnit.modify]
      rw [h fun hlt => absurd hlt houtput]

theorem sameRegisters_of_eval (u : ShaderUnit F E) (swizzle : SwizzlePattern) (dest : DestRegister)
    (value : Value .float 4) (expected : Vec4 F) (h : value.eval fn setup u = expected) :
    SameRegisters outputNamed
      (runLines fn setup (setDest swizzle.destComponentEnabled (getDestRegister outputNamed dest) value) u)
      (u.writeDest swizzle dest expected) :=
  (sameRegisters_setDest fn setup outputNamed u swizzle dest value expected).mpr fun _ k _ => congrFun h k

theorem runLines_onlyIf (u : ShaderUnit F E) {condition : Code .bool 1} (lines : List Line)
    (h : evalCode fn setup u condition 0 = true) :
    runLines fn setup (.onlyIf condition :: lines) u = runLines fn setup lines u := by
  cases lines with
  | nil => rfl
  | cons line rest => exact if_pos h

theorem product_eval (u : ShaderUnit F E) {n : Nat} (lhs rhs : Code .float n) :
    evalCode fn setup u (if sanitizeMul then sanitizedMul lhs rhs else .binary .mul lhs rhs) =
      fun k => (evalCode fn setup u lhs k * evalCode fn setup u rhs k : F) := by
  split <;> rfl

omit [LinearOrder F] in
private theorem innerProduct_four (a b : Vec4 F) :
    innerProduct 4 a b = a 0 * b 0 + a 1 * b 1 + a 2 * b 2 + a 3 * b 3 := by
  simp [innerProduct, List.finRange_succ]

omit [LinearOrder F] in
private theorem innerProduct_three (a b : Vec4 F) : innerProduct 3 a b = a 0 * b 0 + a 1 * b 1 + a 2 * b 2 := by
  simp [innerProduct, List.finRange_succ]

omit [LinearOrder F] in
private theorem sum_four (f : Fin 4 → F) : ((List.finRange 4).map f).sum = f 0 + f 1 + f 2 + f 3 := by
  simp [List.finRange_succ, add_assoc]

omit [LinearOrder F] in
private theorem sum_three (f : Fin 3 → F) : ((List.finRange 3).map f).sum = f 0 + f 1 + f 2 := by
  simp [List.finRange_succ, add_assoc]

/-- `DPH` without `sanitize_mul` takes the fourth component of its first source, and not 1. -/
def DphAgrees (common : CommonFields) (src1 src2 : Vec4 F) : Prop :=
  sanitizeMul = true ∨
    (Written outputNamed common.dest →
      (∃ k, (setup.swizzleData common.operandDescId).destComponentEnabled k = true) → src1 3 = 1 ∨ src2 3 = 0)

/-- `CMP` does nothing if one of its modes is unknown. -/
def CmpAgrees (common : CommonFields) (src1 src2 : Vec4 F) (conditionalCode : Fin 2 → Bool) : Prop :=
  match common.compareOpX.comparison, common.compareOpY.comparison with
  | some x, none => x.eval (src1 0) (src2 0) = conditionalCode 0
  | none, some y => y.eval (src1 1) (src2 1) = conditionalCode 1
  | _, _ => True

def Agrees (u : ShaderUnit F E) : Instruction → Prop
  | .arithmetic op srcInversed common =>
    let srcs := common.sources setup u srcInversed
    match op with
    | .dph | .dphi => DphAgrees setup sanitizeMul outputNamed common srcs.1 srcs.2
    | .cmp => CmpAgrees common srcs.1 srcs.2 u.conditionalCode
    | _ => True
  | _ => True

def PositiveOperand (u : ShaderUnit F E) : Instruction → Prop
  | .arithmetic op srcInversed common => op = .rcp ∨ op = .rsq → 0 < (common.sources setup u srcInversed).1 0
  | _ => True

omit [Field F] in
theorem CompareOp.eval_of_some {op : CompareOp} {comparison : Comparison} (h : op.comparison = some comparison)
    (a b : F) (old : Bool) : op.eval a b old = comparison.eval a b := by
  cases op with
  | unknown op => cases h
  | _ =>
    obtain rfl := Option.some.inj h
    rfl

omit [Field F] in
theorem CompareOp.eval_of_none {op : CompareOp} (h : op.comparison = none) (a b : F) (old : Bool) :
    op.eval a b old = old := by
  cases op with
  | unknown op => rfl
  | _ => cases h

private theorem dot_four_eval (u : ShaderUnit F E) (src1 src2 : Code .float 4) (src1' : Code .float 4)
    (h : sanitizeMul = false → src1' = src1) (k : Fin 1) :
    evalCode fn setup u
        (if sanitizeMul then .dot (sanitizedMul src1' src2) (.ones 4) else .dot src1 src2) k =
      (innerProduct 4 (evalCode fn setup u src1') (evalCode fn setup u src2) : F) := by
  rw [innerProduct_four]
  split
  · rename_i hsanitize
    simp only [evalCode, Expr.eval, sum_four, mul_one]
    rfl
  · rename_i hsanitize
    rw [h (Bool.eq_false_iff.mpr hsanitize)]
    simp only [evalCode, Expr.eval, sum_four]

private theorem dot_three_eval (u : ShaderUnit F E) (src1 src2 : Code .float 4) :
    Value.eval fn setup u
        (.scalar (if sanitizeMul then .dot (firstOf 3 (sanitizedMul src1 src2)) (.ones 3)
          else .dot (firstOf 3 src1) (firstOf 3 src2)) : Value .float 4) =
      fun _ => innerProduct 3 (evalCode fn setup u src1) (evalCode fn setup u src2) := by
  funext k
  rw [innerProduct_three]
  split
  · simp only [Value.eval, evalCode, Expr.eval, sum_three, mul_one]
    rfl
  · simp only [Value.eval, evalCode, Expr.eval, sum_three]
    rfl

private theorem dph_eval_iff (u : ShaderUnit F E) (src1 src2 : Code .float 4) :
    evalCode fn setup u
        (if sanitizeMul then .dot (sanitizedMul (.withOne (firstOf 3 src1)) src2) (.ones 4) else .dot src1 src2) 0 =
      (innerProduct 4 (Function.update (evalCode fn setup u src1) 3 1) (evalCode fn setup u src2) : F) ↔
        sanitizeMul = true ∨ evalCode fn setup u src1 3 = (1 : F) ∨ evalCode fn setup u src2 3 = (0 : F) := by
  cases sanitizeMul with
  | true =>
    refine iff_of_true ?_ (.inl rfl)
    have hone : evalCode fn setup u (.withOne (firstOf 3 src1)) = Function.update (evalCode fn setup u src1) 3 1 := by
      funext k
      match k with
      | 0 | 1 | 2 | 3 => rfl
    exact dot_four_eval fn setup true u src1 src2 _ (fun h => by cases h) 0
  | false =>
    have hdot := dot_four_eval fn setup false u src1 src2 src1 (fun _ => rfl) 0
    simp only [Bool.false_eq_true, if_false, false_or] at hdot ⊢
    rw [hdot, innerProduct_four, innerProduct_four]
    simp only [Function.update_self, ne_eq, Fin.reduceEq, not_false_eq_true, Function.update_of_ne, one_mul,
      add_right_inj]
    exact mul_left_eq_self₀

omit [Field F] in
private theorem max_eq (a b : F) : (if a < b then b else a) = if a > b then a else b := by
  rcases lt_trichotomy a b with hlt | heq | hgt
  · rw [if_pos hlt, if_neg (not_lt_of_gt hlt)]
  · rw [heq, ite_self]
  · rw [if_neg (not_lt_of_gt hgt), if_pos hgt]

private theorem max_eval (u : ShaderUnit F E) (src1 src2 : Code .float 4) :
    Value.eval fn setup u
        (.vector (if sanitizeMul then .mix src2 src1 (.compare .greaterThan src1 src2) else .binary .max src1 src2)) =
      fun k => if evalCode fn setup u src1 k > (evalCode fn setup u src2 k : F) then evalCode fn setup u src1 k
        else evalCode fn setup u src2 k := by
  funext k
  cases sanitizeMul with
  | true => simp [Value.eval, evalCode, Expr.eval, Comparison.eval]
  | false => exact max_eq _ _

private theorem min_eval (u : ShaderUnit F E) (src1 src2 : Code .float 4) :
    Value.eval fn setup u
        (.vector (if sanitizeMul then .mix src2 src1 (.compare .lessThan src1 src2) else .binary .min src1 src2)) =
      fun k => if evalCode fn setup u src1 k < (evalCode fn setup u src2 k : F) then evalCode fn setup u src1 k
        else evalCode fn setup u src2 k := by
  funext k
  cases sanitizeMul with
  | true => simp [Value.eval, evalCode, Expr.eval, Comparison.eval]
  | false => exact (max_eq (F := Fᵒᵈ) _ _)

private theorem bind_ok {α β ε : Type} {x : Except ε α} {f : α → Except ε β} {b : β} (h : x >>= f = .ok b) :
    ∃ a, x = .ok a ∧ f a = .ok b := by
  cases x with
  | error e => cases h
  | ok a => exact ⟨a, rfl, h⟩

private theorem runLines_code (u : ShaderUnit F E) (i : Fin 2) (value : Code .bool 1) (rest : List Line) :
    runLines fn setup (.assign .conditionalCode [i] value rfl :: rest) u =
      runLines fn setup rest
        { u with conditionalCode := Function.update u.conditionalCode i (evalCode fn setup u value 0) } := by
  simp only [runLines, ShaderUnit.modify]
  congr 2
  funext k
  by_cases hk : k = i
  · subst hk
    simp [writeMasked]
  · simp [writeMasked, hk]

private theorem cmp_agrees_iff (u : ShaderUnit F E) (common : CommonFields) (isInverted : Bool)
    (src1 src2 : Code .float 4) {lines : List Line} (swizzleData : Nat → SwizzlePattern)
    (h : arithmeticLines sanitizeMul outputNamed swizzleData .cmp common src1 src2 = .ok lines)
    (h₁ : ∀ u : ShaderUnit F E, evalCode fn setup u src1 = (common.sources setup u isInverted).1)
    (h₂ : ∀ u : ShaderUnit F E, evalCode fn setup u src2 = (common.sources setup u isInverted).2) :
    SameRegisters outputNamed (runLines fn setup lines u) (arithmetic fn setup .cmp isInverted common u) ↔
      CmpAgrees common (common.sources setup u isInverted).1 (common.sources setup u isInverted).2
        u.conditionalCode := by
  have hcode : SameRegisters outputNamed (runLines fn setup lines u) (arithmetic fn setup .cmp isInverted common u) ↔
      (runLines fn setup lines u).conditionalCode =
        (arithmetic fn setup .cmp isInverted common u).conditionalCode := by
    refine ⟨fun h => h.conditionalCode, fun hc => ⟨?_, fun _ _ => ?_, ?_, hc⟩⟩ <;>
    · unfold arithmeticLines at h
      dsimp only at h
      split at h
      · split at h <;> (obtain rfl := Except.ok.inj h; rfl)
      · obtain rfl := Except.ok.inj h
        rfl
  rw [hcode]
  unfold arithmeticLines at h
  unfold CmpAgrees
  cases hx : common.compareOpX.comparison with
  | none =>
    simp only [hx] at h
    obtain rfl := Except.ok.inj h
    cases hy : common.compareOpY.comparison with
    | none =>
      refine iff_of_true (funext fun i => ?_) trivial
      match i with
      | 0 => exact (CompareOp.eval_of_none hx _ _ _).symm
      | 1 => exact (CompareOp.eval_of_none hy _ _ _).symm
    | some y =>
      constructor
      · intro hsame
        have := congrFun hsame 1
        exact ((CompareOp.eval_of_some hy _ _ _).symm.trans this.symm)
      · intro hsame
        funext i
        match i with
        | 0 => exact (CompareOp.eval_of_none hx _ _ _).symm
        | 1 => exact (hsame.symm.trans (CompareOp.eval_of_some hy _ _ _).symm)
  | some x =>
    cases hy : common.compareOpY.comparison with
    | none =>
      simp only [hx, hy] at h
      obtain rfl := Except.ok.inj h
      constructor
      · intro hsame
        have := congrFun hsame 0
        exact ((CompareOp.eval_of_some hx _ _ _).symm.trans this.symm)
      · intro hsame
        funext i
        match i with
        | 0 => exact (hsame.symm.trans (CompareOp.eval_of_some hx _ _ _).symm)
        | 1 => exact (CompareOp.eval_of_none hy _ _ _).symm
    | some y =>
      simp only [hx, hy] at h
      refine iff_of_true ?_ trivial
      have hx' := CompareOp.eval_of_some (F := F) hx
      have hy' := CompareOp.eval_of_some (F := F) hy
      have hcomponent (u : ShaderUnit F E) (comparison : Comparison) (k : Fin 4) :
          evalCode fn setup u (.compare comparison (componentOf src1 k) (componentOf src2 k)) 0 =
            comparison.eval ((common.sources setup u isInverted).1 k) ((common.sources setup u isInverted).2 k) := by
        rw [← h₁ u, ← h₂ u]
        rfl
      split at h
      · obtain rfl := Except.ok.inj h
        rw [runLines_code, runLines_code, hcomponent, hcomponent]
        funext i
        match i with
        | 0 => exact (hx' _ _ _).symm
        | 1 => exact (hy' _ _ _).symm
      · rename_i heq
        obtain rfl := Except.ok.inj h
        obtain rfl : x = y := not_not.mp heq
        have hboth : evalCode fn setup u (.compare x (firstOf 2 src1) (firstOf 2 src2)) = fun i : Fin 2 =>
            x.eval ((common.sources setup u isInverted).1 (i.castLE (by decide)))
              ((common.sources setup u isInverted).2 (i.castLE (by decide))) := by
          rw [← h₁ u, ← h₂ u]
          rfl
        simp only [runLines, hboth]
        funext i
        match i with
        | 0 => exact (hx' _ _ _).symm
        | 1 => exact (hy' _ _ _).symm

private theorem runLines_mova (u : ShaderUnit F E) (swizzle : SwizzlePattern) (src1 : Code .float 4) :
    runLines fn setup
        (setDest (fun k : Fin 2 => swizzle.destComponentEnabled (k.castLE (by decide))) (some .addressRegisters)
          (.vector (firstOf 2 (.toInt src1)))) u =
      u.writeAddress swizzle fun k => fn.truncate (evalCode fn setup u src1 k) := by
  rw [runLines_setDest]
  simp only [ShaderUnit.modify, ShaderUnit.writeAddress]
  congr 1
  funext i
  by_cases hi : i.val < 2
  · simp only [hi, dif_pos, true_and]
    rfl
  · simp only [hi, dif_neg, false_and, if_false, not_false_eq_true]

theorem arithmeticLines_agrees_iff (u : ShaderUnit F E) (op : ArithmeticOp) (common : CommonFields) (isInverted : Bool)
    {src1 src2 : Code .float 4} {lines : List Line}
    (h : arithmeticLines sanitizeMul outputNamed setup.swizzleData op common src1 src2 = .ok lines)
    (h₁ : ∀ u : ShaderUnit F E, evalCode fn setup u src1 = (common.sources setup u isInverted).1)
    (h₂ : ∀ u : ShaderUnit F E, evalCode fn setup u src2 = (common.sources setup u isInverted).2)
    (hpos : PositiveOperand setup u (.arithmetic op isInverted common)) :
    SameRegisters outputNamed (runLines fn setup lines u) (arithmetic fn setup op isInverted common u) ↔
      Agrees setup sanitizeMul outputNamed u (.arithmetic op isInverted common) := by
  have hwrite (value : Value .float 4) (expected : Vec4 F) (he : value.eval fn setup u = expected) :=
    sameRegisters_of_eval fn setup outputNamed u (setup.swizzleData common.operandDescId) common.dest value expected he
  have hguard (condition : Code .bool 1) (lines : List Line)
      (hcondition : evalCode fn setup u condition 0 = true) :
      runLines fn setup ((if sanitizeMul then [] else [.onlyIf condition]) ++ lines) u = runLines fn setup lines u := by
    split
    · rfl
    · exact runLines_onlyIf fn setup u lines hcondition
  cases op with
  | cmp => exact cmp_agrees_iff fn setup sanitizeMul outputNamed u common isInverted src1 src2 _ h h₁ h₂
  | dph | dphi =>
    obtain rfl := Except.ok.inj h
    refine (sameRegisters_setDest fn setup outputNamed u _ common.dest _ _).trans ?_
    have hdot := dph_eval_iff fn setup sanitizeMul u src1 src2
    simp only [Agrees, DphAgrees, ← h₁ u, ← h₂ u]
    refine ⟨fun h => ?_, fun h hdest k hk => hdot.mpr (h.imp_right fun hor => hor hdest ⟨k, hk⟩)⟩
    by_cases hsanitize : sanitizeMul = true
    · exact .inl hsanitize
    · exact .inr fun hdest ⟨k, hk⟩ => (hdot.mp (h hdest k hk)).resolve_left hsanitize
  | add =>
    obtain rfl := Except.ok.inj h
    refine iff_of_true (hwrite _ _ ?_) trivial
    rw [← h₁ u, ← h₂ u]
    rfl
  | mul =>
    obtain rfl := Except.ok.inj h
    refine iff_of_true (hwrite _ _ ?_) trivial
    rw [← h₁ u, ← h₂ u]
    exact product_eval fn setup sanitizeMul u src1 src2
  | flr | mov | ex2 | lg2 =>
    obtain rfl := Except.ok.inj h
    refine iff_of_true (hwrite _ _ ?_) trivial
    rw [← h₁ u]
    rfl
  | max =>
    obtain rfl := Except.ok.inj h
    refine iff_of_true (hwrite _ _ ?_) trivial
    rw [← h₁ u, ← h₂ u]
    exact max_eval fn setup sanitizeMul u src1 src2
  | min =>
    obtain rfl := Except.ok.inj h
    refine iff_of_true (hwrite _ _ ?_) trivial
    rw [← h₁ u, ← h₂ u]
    exact min_eval fn setup sanitizeMul u src1 src2
  | dp3 =>
    obtain rfl := Except.ok.inj h
    refine iff_of_true (hwrite _ _ ?_) trivial
    rw [← h₁ u, ← h₂ u]
    exact dot_three_eval fn setup sanitizeMul u src1 src2
  | dp4 =>
    obtain rfl := Except.ok.inj h
    refine iff_of_true (hwrite _ _ ?_) trivial
    rw [← h₁ u, ← h₂ u]
    funext _
    exact dot_four_eval fn setup sanitizeMul u src1 src2 src1 (fun _ => rfl) 0
  | rcp =>
    obtain rfl := Except.ok.inj h
    have hoperand : 0 < (common.sources setup u isInverted).1 0 := hpos (.inl rfl)
    rw [← h₁ u] at hoperand
    rw [hguard]
    · refine iff_of_true (hwrite _ _ ?_) trivial
      rw [← h₁ u]
      rfl
    · exact decide_eq_true (ne_of_gt hoperand)
  | rsq =>
    obtain rfl := Except.ok.inj h
    have hoperand : 0 < (common.sources setup u isInverted).1 0 := hpos (.inr rfl)
    rw [← h₁ u] at hoperand
    rw [hguard]
    · refine iff_of_true (hwrite _ _ ?_) trivial
      rw [← h₁ u]
      rfl
    · exact decide_eq_true hoperand
  | mova =>
    obtain rfl := Except.ok.inj h
    refine iff_of_true ?_ trivial
    rw [runLines_mova, h₁ u]
    exact ⟨rfl, fun _ _ => rfl, rfl, rfl⟩
  | sge | sgei | slt | slti =>
    obtain rfl := Except.ok.inj h
    refine iff_of_true (hwrite _ _ ?_) trivial
    rw [← h₁ u, ← h₂ u]
    funext k
    simp [Value.eval, evalCode, Expr.eval, Comparison.eval]
  | other id => cases h

theorem compileArithmetic_agrees_iff (u : ShaderUnit F E) (op : ArithmeticOp) (isInverted : Bool)
    (common : CommonFields) {lines : List Line}
    (h : compileArithmetic sanitizeMul outputNamed setup.swizzleData op isInverted common = .ok lines)
    (hpos : PositiveOperand setup u (.arithmetic op isInverted common)) :
    SameRegisters outputNamed (runLines fn setup lines u) (arithmetic fn setup op isInverted common u) ↔
      Agrees setup sanitizeMul outputNamed u (.arithmetic op isInverted common) := by
  obtain ⟨src1, h₁, h⟩ := bind_ok h
  obtain ⟨src2, h₂, h⟩ := bind_ok h
  exact arithmeticLines_agrees_iff fn setup sanitizeMul outputNamed u op common isInverted h
    (fun u => source_eval fn setup h₁ u) (fun u => source_eval fn setup h₂ u) hpos

theorem compileMultiplyAdd_agrees (u : ShaderUnit F E) (op : MultiplyAddOp) (mad : MadFields) {lines : List Line}
    (h : compileMultiplyAdd sanitizeMul outputNamed setup.swizzleData op mad = .ok lines) :
    SameRegisters outputNamed (runLines fn setup lines u) (multiplyAdd setup op mad u) := by
  cases op with
  | other id => cases h
  | mad | madi =>
    obtain ⟨src1, h₁, h⟩ := bind_ok h
    obtain ⟨src2, h₂, h⟩ := bind_ok h
    obtain ⟨src3, h₃, h⟩ := bind_ok h
    obtain rfl := Except.ok.inj h
    refine sameRegisters_of_eval fn setup outputNamed u _ mad.dest _ _ ?_
    funext k
    have hproduct := congrFun (product_eval fn setup sanitizeMul u src1 src2) k
    calc _ = (evalCode fn setup u src1 k * evalCode fn setup u src2 k + evalCode fn setup u src3 k : F) :=
          congrArg (fun product : F => product + evalCode fn setup u src3 k) hproduct
      _ = _ := by
        rw [source_eval fn setup h₁ u, source_eval fn setup h₂ u, source_eval fn setup h₃ u]
        rfl

/-- What is written for an instruction does what the interpreter does, exactly if the instruction agrees. -/
theorem compileInstr_agrees_iff (g : GeometryEmitter F E) (s : State F E) (instr : Instruction) {lines : List Line}
    (h : compileInstr sanitizeMul outputNamed setup.swizzleData instr = .ok lines) {e : Executed F E}
    (he : execute fn g setup s instr = some e) (hpos : PositiveOperand setup s.unit instr) :
    SameRegisters outputNamed (runLines fn setup lines s.unit) e.state.unit ↔
      Agrees setup sanitizeMul outputNamed s.unit instr := by
  cases instr with
  | arithmetic op srcInversed common =>
    obtain rfl := Option.some.inj he
    exact compileArithmetic_agrees_iff fn setup sanitizeMul outputNamed s.unit op srcInversed common h hpos
  | multiplyAdd op mad =>
    obtain rfl := Option.some.inj he
    exact iff_of_true (compileMultiplyAdd_agrees fn setup sanitizeMul outputNamed s.unit op mad h) trivial
  | nop =>
    obtain rfl := Option.some.inj he
    obtain rfl := Except.ok.inj h
    exact iff_of_true ⟨rfl, fun _ _ => rfl, rfl, rfl⟩ trivial
  | emit =>
    obtain rfl := Except.ok.inj h
    simp only [execute] at he
    cases hemitter : s.unit.emitter with
    | none => simp [hemitter] at he
    | some emitter =>
      simp only [hemitter, Option.map_eq_some_iff] at he
      obtain ⟨emitter', -, rfl⟩ := he
      exact iff_of_true ⟨rfl, fun _ _ => rfl, rfl, rfl⟩ trivial
  | setemit vertexId primEmit winding =>
    obtain rfl := Except.ok.inj h
    simp only [execute] at he
    cases hemitter : s.unit.emitter with
    | none => simp [hemitter] at he
    | some emitter =>
      simp only [hemitter, Option.some.injEq] at he
      subst he
      exact iff_of_true ⟨rfl, fun _ _ => rfl, rfl, rfl⟩ trivial
  | _ => cases h

end Lines

namespace DotProduct

def fn : Functions ℚ := ⟨id, id, id, id, fun _ => 0⟩

def emitter : GeometryEmitter ℚ Unit := ⟨fun _ _ => none, fun e _ _ _ => e⟩

def setup : ShaderSetup ℚ where
  f := fun _ _ => 0
  b := fun _ => false
  i := fun _ => ⟨0, 0, 0, 0⟩
  programCode := fun _ => .nop
  swizzleData := fun _ => ⟨false, false, false, id, id, id, fun _ => true⟩

def state : State ℚ Unit :=
  ⟨⟨fun i _ => if i = 0 then 0 else 1, fun _ _ => 0, fun _ _ => 0, fun _ => 0, fun _ => false, none⟩, 0, [], [], []⟩

def instr : Instruction :=
  .arithmetic .dph false ⟨fun _ => .input 0, fun _ => .input 1, 0, 0, .equal, .equal, 0⟩

theorem dph_agrees_iff :
    ∃ lines e, compileInstr false (fun _ => true) setup.swizzleData instr = .ok lines ∧
      execute fn emitter setup state instr = some e ∧ PositiveOperand setup state.unit instr ∧
        (SameRegisters (fun _ => true) (runLines fn setup lines state.unit) e.state.unit ↔
          Agrees setup false (fun _ => true) state.unit instr) :=
  ⟨_, _, rfl, rfl, fun h => by simp at h, compileInstr_agrees_iff fn setup false (fun _ => true) emitter state instr rfl
    rfl fun h => by simp at h⟩

/-- The interpreter has 1, and the generated shader 0. -/
theorem dph_not_sameRegisters :
    ¬ ∀ lines e, compileInstr false (fun _ => true) setup.swizzleData instr = .ok lines →
      execute fn emitter setup state instr = some e → PositiveOperand setup state.unit instr →
        SameRegisters (fun _ => true) (runLines fn setup lines state.unit) e.state.unit := by
  intro h
  have hpos : PositiveOperand setup state.unit instr := fun h => by simp at h
  have hagrees := (compileArithmetic_agrees_iff fn setup false (fun _ => true) state.unit .dph false _ rfl hpos).mp
    (h _ _ rfl rfl hpos)
  rcases hagrees with hsanitize | hdot
  · cases hsanitize
  · have := hdot (fun _ => rfl) ⟨0, rfl⟩
    simp [CommonFields.sources, operand, lookupSourceRegister, setup, state] at this

end DotProduct

end SweepDSEmu.VideoCore.Interpreter
