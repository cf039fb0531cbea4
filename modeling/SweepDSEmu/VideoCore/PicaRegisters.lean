import SweepDSEmu.Lib.Outcome
import SweepDSEmu.Lib.FinNumerals
import Mathlib.Data.Fintype.Basic

/-!
# Writes to the registers of the GPU

`WriteInternalReg` stores a word in the register array and, for some registers, in a table: the program code and the
swizzle patterns of the two shaders, their uniforms, the lookup tables of lighting, fog and procedural textures, and the
attributes of immediate mode drawing.  The index of such a store is held by another register, or by a queue of words.

* Every store goes through `storeAt`, which fails when the index is not below the size of the table.
* Vectors of floats are values of a type `V`; how they are read from words is left to `Host`, as is what a draw leaves
  in the uniforms of the geometry shader.
* `Bounded` is the invariant of the queues, and `Proper` what a single write needs.

Interrupts are counted.  Debug events, delays and the primitive assembler hold no table that a register write stores to.
-/

namespace SweepDSEmu.VideoCore

namespace Pica

abbrev Table (α : Type) (n : Nat) := Fin n → α

inductive Fault
  /-- An index that is not below the size of its table. -/
  | outOfBounds (index size : Nat)
  /-- An assertion of the source. -/
  | assertion
  deriving DecidableEq

def storeAt {α : Type} {n : Nat} (t : Table α n) (i : Nat) (value : α) : Except Fault (Table α n) :=
  if h : i < n then .ok (Function.update t ⟨i, h⟩ value) else .error (.outOfBounds i n)

/-- `std::exchange` of an element of a table. -/
def exchangeAt {α : Type} {n : Nat} (t : Table α n) (i : Nat) (value : α) : Except Fault (α × Table α n) :=
  if h : i < n then .ok (t ⟨i, h⟩, Function.update t ⟨i, h⟩ value) else .error (.outOfBounds i n)

def bitField (position bits : Nat) (storage : BitVec 32) : Nat := storage.toNat / 2 ^ position % 2 ^ bits

def assign (position bits : Nat) (storage : BitVec 32) (value : Nat) : BitVec 32 :=
  let mask := BitVec.ofNat 32 ((2 ^ bits - 1) * 2 ^ position)
  (storage &&& ~~~mask) ||| (BitVec.ofNat 32 (value * 2 ^ position) &&& mask)

/-- Words of a vector that is not complete yet. -/
structure PackedAttribute where
  buffer : Table (BitVec 32) 4 := fun _ => 0
  index : Nat := 0

namespace PackedAttribute

def push (q : PackedAttribute) (word : BitVec 32) (isFloat32 : Bool) : Except Fault (Bool × PackedAttribute) := do
  let buffer ← storeAt q.buffer q.index word
  let index := q.index + 1
  return ((4 ≤ index && isFloat32) || (3 ≤ index && !isFloat32), ⟨buffer, index⟩)

def reset (q : PackedAttribute) : PackedAttribute := { q with index := 0 }

end PackedAttribute

structure ShaderSetup (V : Type) where
  uniformsF : Table V 96
  uniformsB : Table Bool 16
  uniformsI : Table (BitVec 32) 4
  uniformQueue : PackedAttribute
  uniformsDirty : Bool
  programCode : Table (BitVec 32) 4096
  swizzleData : Table (BitVec 32) 4096
  programCodeHashDirty : Bool
  swizzleDataHashDirty : Bool
  programCodePendingFixup : Bool
  hasFixup : Bool
  biggestProgramSize : Nat
  biggestSwizzleSize : Nat

structure ImmediateModeState (V : Type) where
  inputVertex : Table V 16
  currentAttribute : Nat
  resetGeometryPipeline : Bool
  queue : PackedAttribute

def ImmediateModeState.reset {V : Type} (i : ImmediateModeState V) : ImmediateModeState V :=
  { i with currentAttribute := 0, resetGeometryPipeline := true, queue := i.queue.reset }

structure CommandList where
  addr : Nat
  length : Nat
  currentIndex : Nat

/-- The state of the GPU that register writes change. -/
structure PicaCore (V : Type) where
  regArray : Table (BitVec 32) 0x300
  dirtyRegs : Table (BitVec 64) 12
  vsSetup : ShaderSetup V
  gsSetup : ShaderSetup V
  lightingLuts : Table (Table (BitVec 32) 256) 24
  lightingLutDirty : BitVec 32
  fogLut : Table (BitVec 32) 128
  fogLutDirty : Bool
  noiseTable : Table (BitVec 32) 128
  colorMapTable : Table (BitVec 32) 128
  alphaMapTable : Table (BitVec 32) 128
  colorTable : Table (BitVec 32) 256
  colorDiffTable : Table (BitVec 32) 256
  proctexTableDirty : BitVec 8
  inputDefaultAttributes : Table V 16
  immediate : ImmediateModeState V
  cmdList : CommandList
  stopRequested : Bool
  interrupts : Nat

/-- What the registers leave to others. -/
structure Host (V : Type) where
  /-- Four floats from three words of packed 24-bit floats. -/
  asFloat24 : Table (BitVec 32) 4 → V
  /-- Four floats from four words. -/
  asFloat32 : Table (BitVec 32) 4 → V
  /-- The comparison of vectors. -/
  differs : V → V → Bool
  /-- The uniforms of the geometry shader after a draw, to which the geometry pipeline hands its vertices. -/
  drawn : PicaCore V → Table V 96
  /-- What is read behind the table of the masks. -/
  strayMask : Nat → BitVec 32

variable {V : Type}

def PackedAttribute.get (host : Host V) (q : PackedAttribute) (isFloat32 : Bool) : V :=
  if isFloat32 then host.asFloat32 q.buffer else host.asFloat24 q.buffer

namespace ShaderSetup

/-- One turn of the loop of `WriteUniformBoolReg`. -/
def writeUniformBool (value : BitVec 32) (s : ShaderSetup V) (i : Nat) : Except Fault (ShaderSetup V) := do
  let bit := value.getLsbD i
  let (prev, uniformsB) ← exchangeAt s.uniformsB i bit
  return { s with uniformsB := uniformsB, uniformsDirty := s.uniformsDirty || prev != bit }

def writeUniformBoolReg (s : ShaderSetup V) (value : BitVec 32) : Except Fault (ShaderSetup V) :=
  (List.range 16).foldlM (writeUniformBool value) s

/-- The four bytes of an integer uniform are kept in one word. -/
def writeUniformIntReg (s : ShaderSetup V) (index : Nat) (values : BitVec 32) : Except Fault (ShaderSetup V) :=
  if index < 4 then do
    let (prev, uniformsI) ← exchangeAt s.uniformsI index values
    return { s with uniformsI := uniformsI, uniformsDirty := s.uniformsDirty || prev != values }
  else .error .assertion

/-- A complete vector, for the uniform that the setup register names.  The result has the index of the uniform, and the
setup register with the next one. -/
def writeUniformFloat (host : Host V) (s : ShaderSetup V) (setup : BitVec 32) (uniform : V) :
    Except Fault (Option Nat × BitVec 32 × ShaderSetup V) :=
  let index := bitField 0 7 setup
  if index < 96 then do
    let (prev, uniformsF) ← exchangeAt s.uniformsF index uniform
    return (some index, assign 0 7 setup (index + 1),
      { s with uniformsF := uniformsF, uniformsDirty := s.uniformsDirty || host.differs prev uniform })
  else .ok (none, setup, s)

def writeUniformFloatReg (host : Host V) (s : ShaderSetup V) (setup value : BitVec 32) :
    Except Fault (Option Nat × BitVec 32 × ShaderSetup V) := do
  let isFloat32 := bitField 31 1 setup = 1
  let (full, queue) ← s.uniformQueue.push value isFloat32
  if full then
    writeUniformFloat host { s with uniformQueue := queue.reset } setup (queue.get host isFloat32)
  else
    return (none, setup, { s with uniformQueue := queue })

def updateProgramCode (s : ShaderSetup V) (offset : Nat) (value : BitVec 32) : Except Fault (ShaderSetup V) := do
  let (old, programCode) ← exchangeAt s.programCode offset value
  if old = value then return s
  else
    return { s with
      programCode := programCode
      programCodeHashDirty := true
      programCodePendingFixup := if s.programCodeHashDirty then s.programCodePendingFixup else true
      hasFixup := if s.programCodeHashDirty then s.hasFixup else false
      biggestProgramSize := max s.biggestProgramSize (offset + 1) }

def updateSwizzleData (s : ShaderSetup V) (offset : Nat) (value : BitVec 32) : Except Fault (ShaderSetup V) := do
  let (old, swizzleData) ← exchangeAt s.swizzleData offset value
  if old = value then return s
  else
    return { s with
      swizzleData := swizzleData
      swizzleDataHashDirty := true
      biggestSwizzleSize := max s.biggestSwizzleSize (offset + 1) }

end ShaderSetup

/-- A register, by its position in the register array. -/
abbrev Reg := Fin 0x300

namespace Reg

def irqRequest : Reg := 0x010
def irqCompare : Reg := 0x020
def irqAutostop : Reg := 0x034
def proctexLutConfig : Reg := 0x0af
def proctexLutData : Reg := 0x0b0
def fogLutOffset : Reg := 0x0e6
def fogLutData : Reg := 0x0e8
def lutConfig : Reg := 0x1c5
def lutData : Reg := 0x1c8
def useGs : Reg := 0x229
def triggerDraw : Reg := 0x22e
def triggerDrawIndexed : Reg := 0x22f
def vsDefaultAttributesIndex : Reg := 0x232
def vsDefaultAttributesValue : Reg := 0x233
def commandBufferSize : Reg := 0x238
def commandBufferAddr : Reg := 0x23a
def commandBufferTrigger : Reg := 0x23c
def maxInputAttribIndex : Reg := 0x242
def gsUnitExclusiveConfiguration : Reg := 0x244
def gs : Reg := 0x280
def vs : Reg := 0x2b0

def boolUniforms (unit : Reg) : Reg := unit
def intUniforms (unit : Reg) : Reg := unit + 0x01
def outputMask (unit : Reg) : Reg := unit + 0x0d
def uniformSetup (unit : Reg) : Reg := unit + 0x10
def uniformValue (unit : Reg) : Reg := unit + 0x11
def programOffset (unit : Reg) : Reg := unit + 0x1b
def programWord (unit : Reg) : Reg := unit + 0x1c
def swizzleOffset (unit : Reg) : Reg := unit + 0x25
def swizzleWord (unit : Reg) : Reg := unit + 0x26

end Reg

/-- One of `count` registers from `first` on. -/
def Within (id : Nat) (first : Reg) (count : Nat) : Prop := first.val ≤ id ∧ id < first.val + count

instance (id : Nat) (first : Reg) (count : Nat) : Decidable (Within id first count) :=
  inferInstanceAs (Decidable (_ ∧ _))

namespace PicaCore

def setReg (s : PicaCore V) (r : Reg) (value : BitVec 32) : PicaCore V :=
  { s with regArray := Function.update s.regArray r value }

/-- The geometry shader unit takes over what is written for the vertex shader. -/
def mirrored (s : PicaCore V) : Bool :=
  bitField 0 1 (s.regArray Reg.gsUnitExclusiveConfiguration) = 0 && bitField 0 2 (s.regArray Reg.useGs) = 0

/-- A change of the setup of the vertex shader, and the same for the geometry shader when it takes it over. -/
def updateShaders (s : PicaCore V) (update : ShaderSetup V → Except Fault (ShaderSetup V)) :
    Except Fault (PicaCore V) := do
  let vsSetup ← update s.vsSetup
  if s.mirrored then
    let gsSetup ← update s.gsSetup
    return { s with vsSetup := vsSetup, gsSetup := gsSetup }
  else return { s with vsSetup := vsSetup }

def updateGs (s : PicaCore V) (update : ShaderSetup V → Except Fault (ShaderSetup V)) : Except Fault (PicaCore V) := do
  let gsSetup ← update s.gsSetup
  return { s with gsSetup := gsSetup }

/-- A word for a table whose offset is a register.  Nothing is stored when the offset is not below `limit`. -/
def writeWord (s : PicaCore V) (offsetReg : Reg) (limit : Nat)
    (update : PicaCore V → Nat → Except Fault (PicaCore V)) : Except Fault (PicaCore V) :=
  let offset := s.regArray offsetReg
  if offset.toNat ≥ limit then .ok s
  else do
    let s ← update s offset.toNat
    return s.setReg offsetReg (offset + 1)

def gsProgramWord (s : PicaCore V) (value : BitVec 32) : Except Fault (PicaCore V) :=
  s.writeWord (Reg.programOffset Reg.gs) 4096 fun s offset => s.updateGs fun t => t.updateProgramCode offset value

def gsSwizzleWord (s : PicaCore V) (value : BitVec 32) : Except Fault (PicaCore V) :=
  s.writeWord (Reg.swizzleOffset Reg.gs) 4096 fun s offset => s.updateGs fun t => t.updateSwizzleData offset value

def vsProgramWord (s : PicaCore V) (value : BitVec 32) : Except Fault (PicaCore V) :=
  s.writeWord (Reg.programOffset Reg.vs) 512 fun s offset => s.updateShaders fun t => t.updateProgramCode offset value

def vsSwizzleWord (s : PicaCore V) (value : BitVec 32) : Except Fault (PicaCore V) :=
  s.writeWord (Reg.swizzleOffset Reg.vs) 4096 fun s offset => s.updateShaders fun t => t.updateSwizzleData offset value

def gsUniformFloat (host : Host V) (s : PicaCore V) (value : BitVec 32) : Except Fault (PicaCore V) := do
  let (_, setup, gsSetup) ← s.gsSetup.writeUniformFloatReg host (s.regArray (Reg.uniformSetup Reg.gs)) value
  return { s with gsSetup := gsSetup }.setReg (Reg.uniformSetup Reg.gs) setup

/-- The uniform of the vertex shader that was written is copied to the geometry shader. -/
def copyUniform (s : PicaCore V) : Option Nat → Except Fault (PicaCore V)
  | none => .ok s
  | some index =>
    if s.mirrored then
      if h : index < 96 then do
        let uniformsF ← storeAt s.gsSetup.uniformsF index (s.vsSetup.uniformsF ⟨index, h⟩)
        return { s with gsSetup := { s.gsSetup with uniformsF := uniformsF } }
      else .error (.outOfBounds index 96)
    else .ok s

def vsUniformFloat (host : Host V) (s : PicaCore V) (value : BitVec 32) : Except Fault (PicaCore V) := do
  let (index, setup, vsSetup) ← s.vsSetup.writeUniformFloatReg host (s.regArray (Reg.uniformSetup Reg.vs)) value
  copyUniform ({ s with vsSetup := vsSetup }.setReg (Reg.uniformSetup Reg.vs) setup) index

def lightingLutWord (s : PicaCore V) (value : BitVec 32) : Except Fault (PicaCore V) :=
  let config := s.regArray Reg.lutConfig
  let index := bitField 0 8 config
  let type := bitField 8 5 config
  if index < 256 then
    if h : type < 24 then do
      let (prev, lut) ← exchangeAt (s.lightingLuts ⟨type, h⟩) index value
      let dirty : BitVec 32 := if prev != value then 1 <<< type else 0
      return { s with
        lightingLuts := Function.update s.lightingLuts ⟨type, h⟩ lut
        lightingLutDirty := s.lightingLutDirty ||| dirty }.setReg Reg.lutConfig (assign 0 8 config (index + 1))
    else .error (.outOfBounds type 24)
  else .error .assertion

def fogLutWord (s : PicaCore V) (value : BitVec 32) : Except Fault (PicaCore V) := do
  let offset := bitField 0 16 (s.regArray Reg.fogLutOffset)
  let (prev, fogLut) ← exchangeAt s.fogLut (offset % 128) value
  return { s with fogLut := fogLut, fogLutDirty := s.fogLutDirty || prev != value }.setReg Reg.fogLutOffset
    (assign 0 16 (s.regArray Reg.fogLutOffset) (offset + 1))

def markProctex (s : PicaCore V) (lutTable : Nat) (changed : Bool) : PicaCore V :=
  { s with proctexTableDirty := s.proctexTableDirty ||| if changed then 1 <<< lutTable else 0 }

def syncProctex (s : PicaCore V) (lutTable index : Nat) (value : BitVec 32) : Except Fault (PicaCore V) :=
  match lutTable with
  | 0 => do
    let (prev, table) ← exchangeAt s.noiseTable (index % 128) value
    return { s with noiseTable := table }.markProctex 0 (prev != value)
  | 2 => do
    let (prev, table) ← exchangeAt s.colorMapTable (index % 128) value
    return { s with colorMapTable := table }.markProctex 2 (prev != value)
  | 3 => do
    let (prev, table) ← exchangeAt s.alphaMapTable (index % 128) value
    return { s with alphaMapTable := table }.markProctex 3 (prev != value)
  | 4 => do
    let (prev, table) ← exchangeAt s.colorTable (index % 256) value
    return { s with colorTable := table }.markProctex 4 (prev != value)
  | 5 => do
    let (prev, table) ← exchangeAt s.colorDiffTable (index % 256) value
    return { s with colorDiffTable := table }.markProctex 5 (prev != value)
  | _ => .ok s

def proctexLutWord (s : PicaCore V) (value : BitVec 32) : Except Fault (PicaCore V) := do
  let config := s.regArray Reg.proctexLutConfig
  let index := bitField 0 8 config
  let s ← s.syncProctex (bitField 8 4 config) index value
  return s.setReg Reg.proctexLutConfig (assign 0 8 config (index + 1))

def drawArrays (host : Host V) (s : PicaCore V) : PicaCore V :=
  { s with gsSetup := { s.gsSetup with uniformsF := host.drawn s } }

/-- The vertex of immediate mode is drawn, and the next one begins. -/
def drawImmediate (host : Host V) (s : PicaCore V) : PicaCore V :=
  { s with
    gsSetup := { s.gsSetup with uniformsF := host.drawn s }
    immediate := { s.immediate with resetGeometryPipeline := false, currentAttribute := 0 } }

def submitAttribute (host : Host V) (s : PicaCore V) (vector : V) : Except Fault (PicaCore V) :=
  let index := s.regArray Reg.vsDefaultAttributesIndex
  if index.toNat < 0xf then do
    let attributes ← storeAt s.inputDefaultAttributes index.toNat vector
    return { s with inputDefaultAttributes := attributes }.setReg Reg.vsDefaultAttributesIndex (index + 1)
  else do
    let current := s.immediate.currentAttribute
    let inputVertex ← storeAt s.immediate.inputVertex current vector
    let s := { s with immediate := { s.immediate with inputVertex := inputVertex } }
    if current < bitField 0 4 (s.regArray Reg.maxInputAttribIndex) then
      return { s with immediate := { s.immediate with currentAttribute := current + 1 } }
    else return s.drawImmediate host

def submitImmediate (host : Host V) (s : PicaCore V) (value : BitVec 32) : Except Fault (PicaCore V) := do
  let (full, queue) ← s.immediate.queue.push value false
  if full then
    if (s.regArray Reg.vsDefaultAttributesIndex).toNat > 0xf then
      -- the words stay in the queue
      return { s with immediate := { s.immediate with queue := queue } }
    else
      submitAttribute host { s with immediate := { s.immediate with queue := queue.reset } } (queue.get host false)
  else return { s with immediate := { s.immediate with queue := queue } }

def anyByteMatch (a b : BitVec 32) : Bool :=
  bitField 0 8 a = bitField 0 8 b || bitField 8 8 a = bitField 8 8 b || bitField 16 8 a = bitField 16 8 b ||
    bitField 24 8 a = bitField 24 8 b

def requestIrq (s : PicaCore V) : PicaCore V :=
  if anyByteMatch (s.regArray Reg.irqRequest) (s.regArray Reg.irqCompare) then
    { s with
      interrupts := s.interrupts + 1
      stopRequested := s.stopRequested || s.regArray Reg.irqAutostop != 0 }
  else s

def triggerCommandBuffer (s : PicaCore V) (channel : Fin 2) : PicaCore V :=
  let addr := 8 * bitField 0 28 (s.regArray (Reg.commandBufferAddr + channel.castLE (by decide)))
  let size := 8 * bitField 0 20 (s.regArray (Reg.commandBufferSize + channel.castLE (by decide)))
  { s with cmdList := ⟨addr, size / 4, 0⟩ }

def intUniform (s : PicaCore V) (unit : Reg) (index : Nat) : BitVec 32 :=
  s.regArray (Reg.intUniforms unit + Fin.ofNat 0x300 index)

def gsUniformInt (s : PicaCore V) (index : Nat) : Except Fault (PicaCore V) :=
  s.updateGs fun t => t.writeUniformIntReg index (s.intUniform Reg.gs index)

def vsUniformInt (s : PicaCore V) (index : Nat) : Except Fault (PicaCore V) :=
  s.updateShaders fun t => t.writeUniformIntReg index (s.intUniform Reg.vs index)

/-- The side effects of a write to the register `id`. -/
def sideEffects (host : Host V) (s : PicaCore V) (id : Nat) (value : BitVec 32) : Except Fault (PicaCore V) :=
  if id = Reg.irqRequest.val then .ok s.requestIrq
  else if id = Reg.vsDefaultAttributesIndex.val then .ok { s with immediate := s.immediate.reset }
  else if Within id Reg.vsDefaultAttributesValue 3 then s.submitImmediate host value
  else if id = Reg.commandBufferTrigger.val then .ok (s.triggerCommandBuffer 0)
  else if id = Reg.commandBufferTrigger.val + 1 then .ok (s.triggerCommandBuffer 1)
  else if id = Reg.triggerDraw.val ∨ id = Reg.triggerDrawIndexed.val then .ok (s.drawArrays host)
  else if id = (Reg.boolUniforms Reg.gs).val then
    s.updateGs fun t => t.writeUniformBoolReg (BitVec.ofNat 32 (bitField 0 16 (s.regArray (Reg.boolUniforms Reg.gs))))
  else if Within id (Reg.intUniforms Reg.gs) 4 then s.gsUniformInt (id - (Reg.intUniforms Reg.gs).val)
  else if Within id (Reg.uniformValue Reg.gs) 8 then s.gsUniformFloat host value
  else if Within id (Reg.programWord Reg.gs) 8 then s.gsProgramWord value
  else if Within id (Reg.swizzleWord Reg.gs) 8 then s.gsSwizzleWord value
  else if id = (Reg.outputMask Reg.vs).val then
    let outputMask := assign 0 16 (s.regArray (Reg.outputMask Reg.gs)) value.toNat
    .ok (if s.mirrored then s.setReg (Reg.outputMask Reg.gs) outputMask else s)
  else if id = (Reg.boolUniforms Reg.vs).val then
    s.updateShaders fun t =>
      t.writeUniformBoolReg (BitVec.ofNat 32 (bitField 0 16 (s.regArray (Reg.boolUniforms Reg.vs))))
  else if Within id (Reg.intUniforms Reg.vs) 4 then s.vsUniformInt (id - (Reg.intUniforms Reg.vs).val)
  else if Within id (Reg.uniformValue Reg.vs) 8 then s.vsUniformFloat host value
  else if Within id (Reg.programWord Reg.vs) 8 then s.vsProgramWord value
  else if Within id (Reg.swizzleWord Reg.vs) 8 then s.vsSwizzleWord value
  else if Within id Reg.lutData 8 then s.lightingLutWord value
  else if Within id Reg.fogLutData 8 then s.fogLutWord value
  else if Within id Reg.proctexLutData 8 then s.proctexLutWord value
  else .ok s

def expandBitsToBytes (host : Host V) (mask : Nat) : BitVec 32 :=
  if mask < 16 then
    BitVec.ofNat 32 (mask % 2 * 0xff + mask / 2 % 2 * 0xff00 + mask / 4 % 2 * 0xff0000 + mask / 8 % 2 * 0xff000000)
  else host.strayMask mask

def setDirty (s : PicaCore V) (id : Nat) : Except Fault (PicaCore V) :=
  if h : id / 64 < 12 then do
    let dirtyRegs ← storeAt s.dirtyRegs (id / 64) (s.dirtyRegs ⟨id / 64, h⟩ ||| 1 <<< (id % 64))
    return { s with dirtyRegs := dirtyRegs }
  else .error (.outOfBounds (id / 64) 12)

def writeInternalReg (host : Host V) (s : PicaCore V) (id : Nat) (value : BitVec 32) (mask : Nat) :
    Except Fault (PicaCore V) :=
  if h : id < 0x300 then do
    let writeMask := expandBitsToBytes host mask
    let regArray ← storeAt s.regArray id ((s.regArray ⟨id, h⟩ &&& ~~~writeMask) ||| (value &&& writeMask))
    let s ← sideEffects host { s with regArray := regArray } id value
    s.setDirty id
  else .ok s

end PicaCore

/-- A call of `WriteInternalReg`. -/
structure RegWrite where
  id : Nat
  value : BitVec 32
  mask : Nat

def run (host : Host V) (s : PicaCore V) (writes : List RegWrite) : Except Fault (PicaCore V) :=
  writes.foldlM (fun s w => s.writeInternalReg host w.id w.value w.mask) s

/-- What a write to the register `id` needs: the type of a lighting table for a word of it, and room in the queue for a
word of an attribute. -/
def Proper (s : PicaCore V) (id : Nat) : Prop :=
  (Within id Reg.lutData 8 → bitField 8 5 (s.regArray Reg.lutConfig) < 24) ∧
    (Within id Reg.vsDefaultAttributesValue 3 → s.immediate.queue.index < 4)

def ProperRun (host : Host V) : PicaCore V → List RegWrite → Prop
  | _, [] => True
  | s, w :: writes =>
    Proper s w.id ∧ ∀ s', s.writeInternalReg host w.id w.value w.mask = .ok s' → ProperRun host s' writes

structure Bounded (s : PicaCore V) : Prop where
  vsQueue : s.vsSetup.uniformQueue.index < 4
  gsQueue : s.gsSetup.uniformQueue.index < 4
  currentAttribute : s.immediate.currentAttribute < 16

/-- All stores of a computation are within their tables, no assertion fails, and the result satisfies `Q`. -/
abbrev InBounds {α : Type} (Q : α → Prop) (x : Except Fault α) : Prop := Outcome (fun _ => False) Q x

section Stores

variable {α : Type} {n i : Nat} {t : Table α n} {v : α}

theorem Within.sub_lt {id count : Nat} {first : Reg} (h : Within id first count) : id - first.val < count := by
  obtain ⟨hle, hlt⟩ := h
  omega

theorem storeAt_ok (h : i < n) : storeAt t i v = .ok (Function.update t ⟨i, h⟩ v) := dif_pos h

theorem exchangeAt_ok (h : i < n) : exchangeAt t i v = .ok (t ⟨i, h⟩, Function.update t ⟨i, h⟩ v) := dif_pos h

end Stores

theorem bitField_lt (position bits : Nat) (storage : BitVec 32) : bitField position bits storage < 2 ^ bits :=
  Nat.mod_lt _ (Nat.two_pow_pos bits)

/-- A word that still fits leaves room for another one, unless the vector is complete. -/
theorem PackedAttribute.push_inBounds {q : PackedAttribute} (h : q.index < 4) (word : BitVec 32) (isFloat32 : Bool) :
    InBounds (fun p => p.1 = true ∨ p.2.index < 4) (q.push word isFloat32) := by
  unfold PackedAttribute.push
  rw [storeAt_ok h, ok_bind]
  by_cases hfull : q.index + 1 < 4
  · exact Or.inr hfull
  · left
    have hindex : q.index + 1 = 4 := by omega
    cases isFloat32 <;> simp [hindex]

namespace ShaderSetup

variable {s : ShaderSetup V}

theorem writeUniformBoolReg_inBounds (value : BitVec 32) :
    InBounds (fun t => t.uniformQueue = s.uniformQueue) (s.writeUniformBoolReg value) := by
  refine Outcome.foldlM (P := fun t : ShaderSetup V => t.uniformQueue = s.uniformQueue) rfl ?_
  intro t i hi ht
  have hlt : i < 16 := List.mem_range.mp hi
  unfold writeUniformBool
  dsimp only
  rw [exchangeAt_ok hlt, ok_bind]
  exact ht

theorem writeUniformIntReg_inBounds {index : Nat} (h : index < 4) (values : BitVec 32) :
    InBounds (fun t => t.uniformQueue = s.uniformQueue) (s.writeUniformIntReg index values) := by
  unfold writeUniformIntReg
  rw [if_pos h, exchangeAt_ok h, ok_bind]
  exact rfl

theorem updateProgramCode_inBounds {offset : Nat} (h : offset < 4096) (value : BitVec 32) :
    InBounds (fun t => t.uniformQueue = s.uniformQueue) (s.updateProgramCode offset value) := by
  unfold updateProgramCode
  rw [exchangeAt_ok h, ok_bind]
  dsimp only
  split
  · exact rfl
  · exact rfl

theorem updateSwizzleData_inBounds {offset : Nat} (h : offset < 4096) (value : BitVec 32) :
    InBounds (fun t => t.uniformQueue = s.uniformQueue) (s.updateSwizzleData offset value) := by
  unfold updateSwizzleData
  rw [exchangeAt_ok h, ok_bind]
  dsimp only
  split
  · exact rfl
  · exact rfl

theorem writeUniformFloatReg_inBounds (host : Host V) (h : s.uniformQueue.index < 4) (setup value : BitVec 32) :
    InBounds (fun r => (∀ index, r.1 = some index → index < 96) ∧ r.2.2.uniformQueue.index < 4)
      (s.writeUniformFloatReg host setup value) := by
  refine Outcome.bind (PackedAttribute.push_inBounds h value _) ?_
  rintro ⟨full, queue⟩ hqueue
  have hreset : queue.reset.index < 4 := Nat.succ_pos 3
  dsimp only at hqueue ⊢
  split
  · unfold writeUniformFloat
    dsimp only
    split
    · rename_i hindex
      rw [exchangeAt_ok hindex, ok_bind]
      refine ⟨?_, hreset⟩
      intro index heq
      cases heq
      exact hindex
    · exact ⟨by simp, hreset⟩
  · rename_i hfull
    refine ⟨by simp, ?_⟩
    rcases hqueue with hq | hq
    · exact (hfull hq).elim
    · exact hq

end ShaderSetup

namespace PicaCore

variable {s : PicaCore V}

section

variable (h : Bounded s)

include h

theorem setReg_bounded (r : Reg) (value : BitVec 32) : Bounded (s.setReg r value) :=
  ⟨h.vsQueue, h.gsQueue, h.currentAttribute⟩

theorem updateGs_inBounds {update : ShaderSetup V → Except Fault (ShaderSetup V)}
    (hu : ∀ t, InBounds (fun t' => t'.uniformQueue = t.uniformQueue) (update t)) :
    InBounds Bounded (s.updateGs update) := by
  refine Outcome.bind (hu s.gsSetup) ?_
  intro gsSetup hgs
  refine ⟨h.vsQueue, ?_, h.currentAttribute⟩
  show gsSetup.uniformQueue.index < 4
  rw [hgs]
  exact h.gsQueue

theorem updateShaders_inBounds {update : ShaderSetup V → Except Fault (ShaderSetup V)}
    (hu : ∀ t, InBounds (fun t' => t'.uniformQueue = t.uniformQueue) (update t)) :
    InBounds Bounded (s.updateShaders update) := by
  refine Outcome.bind (hu s.vsSetup) ?_
  intro vsSetup hvs
  have hvq : vsSetup.uniformQueue.index < 4 := by
    rw [hvs]
    exact h.vsQueue
  split
  · refine Outcome.bind (hu s.gsSetup) ?_
    intro gsSetup hgs
    refine ⟨hvq, ?_, h.currentAttribute⟩
    show gsSetup.uniformQueue.index < 4
    rw [hgs]
    exact h.gsQueue
  · exact ⟨hvq, h.gsQueue, h.currentAttribute⟩

theorem writeWord_inBounds {offsetReg : Reg} {limit : Nat} {update : PicaCore V → Nat → Except Fault (PicaCore V)}
    (hu : ∀ offset, offset < limit → InBounds Bounded (update s offset)) :
    InBounds Bounded (s.writeWord offsetReg limit update) := by
  unfold writeWord
  dsimp only
  split
  · exact h
  · rename_i hlimit
    refine Outcome.bind (hu _ (by omega)) ?_
    intro s' hs'
    exact setReg_bounded hs' _ _

theorem gsUniformInt_inBounds {index : Nat} (hindex : index < 4) : InBounds Bounded (s.gsUniformInt index) :=
  updateGs_inBounds h fun _ => ShaderSetup.writeUniformIntReg_inBounds hindex _

theorem vsUniformInt_inBounds {index : Nat} (hindex : index < 4) : InBounds Bounded (s.vsUniformInt index) :=
  updateShaders_inBounds h fun _ => ShaderSetup.writeUniformIntReg_inBounds hindex _

theorem gsProgramWord_inBounds (value : BitVec 32) : InBounds Bounded (s.gsProgramWord value) := by
  apply writeWord_inBounds h
  intro offset hoffset
  exact updateGs_inBounds h fun t => ShaderSetup.updateProgramCode_inBounds hoffset value

theorem gsSwizzleWord_inBounds (value : BitVec 32) : InBounds Bounded (s.gsSwizzleWord value) := by
  apply writeWord_inBounds h
  intro offset hoffset
  exact updateGs_inBounds h fun t => ShaderSetup.updateSwizzleData_inBounds hoffset value

theorem vsProgramWord_inBounds (value : BitVec 32) : InBounds Bounded (s.vsProgramWord value) := by
  apply writeWord_inBounds h
  intro offset hoffset
  exact updateShaders_inBounds h fun t => ShaderSetup.updateProgramCode_inBounds (by omega) value

theorem vsSwizzleWord_inBounds (value : BitVec 32) : InBounds Bounded (s.vsSwizzleWord value) := by
  apply writeWord_inBounds h
  intro offset hoffset
  exact updateShaders_inBounds h fun t => ShaderSetup.updateSwizzleData_inBounds hoffset value

theorem outputMask_bounded (mask : BitVec 32) :
    Bounded (if s.mirrored then s.setReg (Reg.outputMask Reg.gs) mask else s) := by
  split
  · exact setReg_bounded h _ _
  · exact h

end

theorem gsUniformFloat_inBounds (host : Host V) (h : Bounded s) (value : BitVec 32) :
    InBounds Bounded (s.gsUniformFloat host value) := by
  refine Outcome.bind (ShaderSetup.writeUniformFloatReg_inBounds host h.gsQueue _ value) ?_
  rintro ⟨index, setup, gsSetup⟩ ⟨-, hq⟩
  exact ⟨h.vsQueue, hq, h.currentAttribute⟩

theorem copyUniform_inBounds (h : Bounded s) {index : Option Nat} (hindex : ∀ i, index = some i → i < 96) :
    InBounds Bounded (s.copyUniform index) := by
  cases index with
  | none => exact h
  | some index =>
    have hlt : index < 96 := hindex index rfl
    unfold copyUniform
    dsimp only
    split
    · rw [storeAt_ok hlt, ok_bind]
      exact ⟨h.vsQueue, h.gsQueue, h.currentAttribute⟩
    · exact h

theorem vsUniformFloat_inBounds (host : Host V) (h : Bounded s) (value : BitVec 32) :
    InBounds Bounded (s.vsUniformFloat host value) := by
  refine Outcome.bind (ShaderSetup.writeUniformFloatReg_inBounds host h.vsQueue _ value) ?_
  rintro ⟨index, setup, vsSetup⟩ ⟨hindex, hq⟩
  apply copyUniform_inBounds ?_ hindex
  exact ⟨hq, h.gsQueue, h.currentAttribute⟩

theorem lightingLutWord_inBounds (h : Bounded s) (htype : bitField 8 5 (s.regArray Reg.lutConfig) < 24)
    (value : BitVec 32) : InBounds Bounded (s.lightingLutWord value) := by
  have hindex : bitField 0 8 (s.regArray Reg.lutConfig) < 256 := bitField_lt 0 8 _
  unfold lightingLutWord
  rw [if_pos hindex, dif_pos htype, exchangeAt_ok hindex, ok_bind]
  exact ⟨h.vsQueue, h.gsQueue, h.currentAttribute⟩

theorem lightingLutWord_error (htype : ¬ bitField 8 5 (s.regArray Reg.lutConfig) < 24) (value : BitVec 32) :
    s.lightingLutWord value = .error (.outOfBounds (bitField 8 5 (s.regArray Reg.lutConfig)) 24) := by
  have hindex : bitField 0 8 (s.regArray Reg.lutConfig) < 256 := bitField_lt 0 8 _
  unfold lightingLutWord
  rw [if_pos hindex, dif_neg htype]

theorem fogLutWord_inBounds (h : Bounded s) (value : BitVec 32) : InBounds Bounded (s.fogLutWord value) := by
  unfold fogLutWord
  dsimp only
  rw [exchangeAt_ok (Nat.mod_lt _ (by decide)), ok_bind]
  exact ⟨h.vsQueue, h.gsQueue, h.currentAttribute⟩

theorem syncProctex_inBounds (h : Bounded s) (lutTable index : Nat) (value : BitVec 32) :
    InBounds Bounded (s.syncProctex lutTable index value) := by
  unfold syncProctex
  split
  case h_6 => exact h
  all_goals
    rw [exchangeAt_ok (Nat.mod_lt _ (by decide)), ok_bind]
    exact ⟨h.vsQueue, h.gsQueue, h.currentAttribute⟩

theorem proctexLutWord_inBounds (h : Bounded s) (value : BitVec 32) : InBounds Bounded (s.proctexLutWord value) := by
  refine Outcome.bind (syncProctex_inBounds h _ _ value) ?_
  intro s' hs'
  exact setReg_bounded hs' _ _

theorem submitAttribute_inBounds (host : Host V) (h : Bounded s) (vector : V) :
    InBounds Bounded (s.submitAttribute host vector) := by
  unfold submitAttribute
  dsimp only
  split
  · rename_i hlt
    rw [storeAt_ok (by omega), ok_bind]
    exact ⟨h.vsQueue, h.gsQueue, h.currentAttribute⟩
  · rw [storeAt_ok h.currentAttribute, ok_bind]
    split
    · rename_i hlt
      have hmax := bitField_lt 0 4 (s.regArray Reg.maxInputAttribIndex)
      refine ⟨h.vsQueue, h.gsQueue, ?_⟩
      show s.immediate.currentAttribute + 1 < 16
      omega
    · exact ⟨h.vsQueue, h.gsQueue, Nat.succ_pos 15⟩

theorem submitImmediate_inBounds (host : Host V) (h : Bounded s) (hqueue : s.immediate.queue.index < 4)
    (value : BitVec 32) : InBounds Bounded (s.submitImmediate host value) := by
  refine Outcome.bind (PackedAttribute.push_inBounds hqueue value false) ?_
  rintro ⟨full, queue⟩ -
  dsimp only
  split
  · split
    · exact ⟨h.vsQueue, h.gsQueue, h.currentAttribute⟩
    · apply submitAttribute_inBounds host
      exact ⟨h.vsQueue, h.gsQueue, h.currentAttribute⟩
  · exact ⟨h.vsQueue, h.gsQueue, h.currentAttribute⟩

theorem submitImmediate_error (host : Host V) (hqueue : ¬ s.immediate.queue.index < 4) (value : BitVec 32) :
    s.submitImmediate host value = .error (.outOfBounds s.immediate.queue.index 4) := by
  unfold submitImmediate PackedAttribute.push storeAt
  rw [dif_neg hqueue]
  rfl

theorem requestIrq_bounded (h : Bounded s) : Bounded s.requestIrq := by
  unfold requestIrq
  split
  · exact ⟨h.vsQueue, h.gsQueue, h.currentAttribute⟩
  · exact h

private theorem inBounds_ite {α : Type} {Q : α → Prop} {c : Prop} [Decidable c] {x y : Except Fault α}
    (hx : c → InBounds Q x) (hy : ¬ c → InBounds Q y) : InBounds Q (if c then x else y) := by
  split
  · rename_i hc
    exact hx hc
  · rename_i hc
    exact hy hc

variable {id : Nat}

theorem sideEffects_inBounds (host : Host V) (h : Bounded s) (hp : Proper s id) (value : BitVec 32) :
    InBounds Bounded (s.sideEffects host id value) := by
  -- one branch for each group of registers, in the order of the source
  refine inBounds_ite (fun _ => requestIrq_bounded h) fun _ => ?_
  refine inBounds_ite (fun _ => ⟨h.vsQueue, h.gsQueue, Nat.succ_pos 15⟩) fun _ => ?_
  refine inBounds_ite (fun hid => submitImmediate_inBounds host h (hp.2 hid) value) fun _ => ?_
  refine inBounds_ite (fun _ => ⟨h.vsQueue, h.gsQueue, h.currentAttribute⟩) fun _ => ?_
  refine inBounds_ite (fun _ => ⟨h.vsQueue, h.gsQueue, h.currentAttribute⟩) fun _ => ?_
  refine inBounds_ite (fun _ => ⟨h.vsQueue, h.gsQueue, h.currentAttribute⟩) fun _ => ?_
  refine inBounds_ite (fun _ => updateGs_inBounds h fun t => ShaderSetup.writeUniformBoolReg_inBounds _) fun _ => ?_
  refine inBounds_ite ?_ fun _ => ?_
  · intro hid
    have hindex := hid.sub_lt
    generalize id - (Reg.intUniforms Reg.gs).val = index at hindex ⊢
    exact gsUniformInt_inBounds h hindex
  refine inBounds_ite (fun _ => gsUniformFloat_inBounds host h value) fun _ => ?_
  refine inBounds_ite (fun _ => gsProgramWord_inBounds h value) fun _ => ?_
  refine inBounds_ite (fun _ => gsSwizzleWord_inBounds h value) fun _ => ?_
  refine inBounds_ite (fun _ => outputMask_bounded h _) fun _ => ?_
  refine inBounds_ite (fun _ => updateShaders_inBounds h fun t => ShaderSetup.writeUniformBoolReg_inBounds _)
    fun _ => ?_
  refine inBounds_ite ?_ fun _ => ?_
  · intro hid
    have hindex := hid.sub_lt
    generalize id - (Reg.intUniforms Reg.vs).val = index at hindex ⊢
    exact vsUniformInt_inBounds h hindex
  refine inBounds_ite (fun _ => vsUniformFloat_inBounds host h value) fun _ => ?_
  refine inBounds_ite (fun _ => vsProgramWord_inBounds h value) fun _ => ?_
  refine inBounds_ite (fun _ => vsSwizzleWord_inBounds h value) fun _ => ?_
  refine inBounds_ite (fun hid => lightingLutWord_inBounds h (hp.1 hid) value) fun _ => ?_
  refine inBounds_ite (fun _ => fogLutWord_inBounds h value) fun _ => ?_
  refine inBounds_ite (fun _ => proctexLutWord_inBounds h value) fun _ => ?_
  exact h

theorem positions :
    Reg.irqRequest.val = 0x10 ∧ Reg.vsDefaultAttributesIndex.val = 0x232 ∧ Reg.vsDefaultAttributesValue.val = 0x233 ∧
      Reg.commandBufferTrigger.val = 0x23c ∧ Reg.triggerDraw.val = 0x22e ∧ Reg.triggerDrawIndexed.val = 0x22f ∧
      (Reg.boolUniforms Reg.gs).val = 0x280 ∧ (Reg.intUniforms Reg.gs).val = 0x281 ∧
      (Reg.uniformValue Reg.gs).val = 0x291 ∧ (Reg.programWord Reg.gs).val = 0x29c ∧
      (Reg.swizzleWord Reg.gs).val = 0x2a6 ∧ (Reg.outputMask Reg.vs).val = 0x2bd ∧
      (Reg.boolUniforms Reg.vs).val = 0x2b0 ∧ (Reg.intUniforms Reg.vs).val = 0x2b1 ∧
      (Reg.uniformValue Reg.vs).val = 0x2c1 ∧ (Reg.programWord Reg.vs).val = 0x2cc ∧
      (Reg.swizzleWord Reg.vs).val = 0x2d6 ∧ Reg.lutData.val = 0x1c8 ∧ Reg.lutConfig.val = 0x1c5 := by
  decide

private theorem sideEffects_lutData (host : Host V) (h : Within id Reg.lutData 8) (value : BitVec 32) :
    s.sideEffects host id value = s.lightingLutWord value := by
  unfold sideEffects
  unfold Within at h ⊢
  simp only [positions] at h ⊢
  simp (disch := omega) only [if_neg, if_pos]

theorem sideEffects_vsDefaultAttributesValue (host : Host V)
    (h : Within id Reg.vsDefaultAttributesValue 3) (value : BitVec 32) :
    s.sideEffects host id value = s.submitImmediate host value := by
  unfold sideEffects
  unfold Within at h ⊢
  simp only [positions] at h ⊢
  simp (disch := omega) only [if_neg, if_pos]

theorem sideEffects_error (host : Host V) (hp : ¬ Proper s id) (value : BitVec 32) :
    ∃ i n, s.sideEffects host id value = .error (.outOfBounds i n) := by
  rcases not_and_or.mp hp with hlut | hqueue
  · obtain ⟨hid, htype⟩ := Classical.not_imp.mp hlut
    rw [sideEffects_lutData host hid]
    exact ⟨_, _, lightingLutWord_error htype value⟩
  · obtain ⟨hid, hindex⟩ := Classical.not_imp.mp hqueue
    rw [sideEffects_vsDefaultAttributesValue host hid]
    exact ⟨_, _, submitImmediate_error host hindex value⟩

theorem setDirty_inBounds (h : Bounded s) (hid : id < 0x300) : InBounds Bounded (s.setDirty id) := by
  have hlt : id / 64 < 12 := by omega
  unfold setDirty
  rw [dif_pos hlt, storeAt_ok hlt, ok_bind]
  exact ⟨h.vsQueue, h.gsQueue, h.currentAttribute⟩

private theorem proper_store (h : id < 0x300) (word : BitVec 32) :
    Proper { s with regArray := Function.update s.regArray ⟨id, h⟩ word } id ↔ Proper s id := by
  refine and_congr (imp_congr_right fun hid => ?_) Iff.rfl
  have hne : Reg.lutConfig ≠ ⟨id, h⟩ := by
    intro heq
    have hval : Reg.lutConfig.val = id := congrArg Fin.val heq
    unfold Within at hid
    simp only [positions] at hid hval
    omega
  dsimp only
  rw [Function.update_of_ne hne]

/-- A write stores within the tables exactly when it has what it needs. -/
theorem writeInternalReg_inBounds (host : Host V) (h : Bounded s) (hp : Proper s id) (value : BitVec 32)
    (mask : Nat) : InBounds Bounded (s.writeInternalReg host id value mask) := by
  unfold writeInternalReg
  split
  · rename_i hid
    dsimp only
    rw [storeAt_ok hid, ok_bind]
    refine Outcome.bind (sideEffects_inBounds host ?_ ((proper_store hid _).mpr hp) value) ?_
    · exact ⟨h.vsQueue, h.gsQueue, h.currentAttribute⟩
    · intro s' hs'
      exact setDirty_inBounds hs' hid
  · exact h

theorem writeInternalReg_error (host : Host V) (hp : ¬ Proper s id) (value : BitVec 32) (mask : Nat) :
    ∃ i n, s.writeInternalReg host id value mask = .error (.outOfBounds i n) := by
  have hid : id < 0x300 := by
    by_contra hid
    apply hp
    unfold Proper Within
    simp only [positions]
    omega
  unfold writeInternalReg
  rw [dif_pos hid]
  dsimp only
  rw [storeAt_ok hid, ok_bind]
  obtain ⟨i, n, he⟩ := sideEffects_error host (mt (proper_store hid _).mp hp) value
  rw [he]
  exact ⟨i, n, rfl⟩

end PicaCore

/-- Every store of a run has an index below the size of its table. -/
def StoresInBounds (host : Host V) (s : PicaCore V) (writes : List RegWrite) : Prop :=
  ∀ i n, run host s writes ≠ .error (.outOfBounds i n)

structure Fresh (s : PicaCore V) : Prop where
  vsQueue : s.vsSetup.uniformQueue.index = 0
  gsQueue : s.gsSetup.uniformQueue.index = 0
  currentAttribute : s.immediate.currentAttribute = 0

theorem Fresh.bounded {s : PicaCore V} (h : Fresh s) : Bounded s := by
  obtain ⟨hvs, hgs, hcurrent⟩ := h
  constructor
  · omega
  · omega
  · omega

private theorem storesInBounds_iff (host : Host V) {s : PicaCore V} (h : Bounded s) (writes : List RegWrite) :
    StoresInBounds host s writes ↔ ProperRun host s writes := by
  induction writes generalizing s with
  | nil => exact iff_of_true (fun i n hrun => by cases hrun) trivial
  | cons w writes ih =>
    unfold StoresInBounds run ProperRun
    rw [List.foldlM_cons]
    by_cases hp : Proper s w.id
    · obtain ⟨s₁, hs₁, h₁⟩ := (PicaCore.writeInternalReg_inBounds host h hp w.value w.mask).exists_ok
      rw [hs₁, ok_bind]
      constructor
      · intro hrun
        refine ⟨hp, ?_⟩
        intro s' heq
        cases heq
        exact (ih h₁).mp hrun
      · rintro ⟨-, hrest⟩
        exact (ih h₁).mpr (hrest s₁ rfl)
    · obtain ⟨i, n, he⟩ := PicaCore.writeInternalReg_error host hp w.value w.mask
      rw [he]
      constructor
      · intro hrun
        exact (hrun i n rfl).elim
      · rintro ⟨hp', -⟩
        exact (hp hp').elim

/-- A run stores within the tables exactly when no word is written to a lighting table with a type from 24 on, and none
to the queue of immediate mode when it holds four words already. -/
theorem run_storesInBounds_iff (host : Host V) {s : PicaCore V} (hs : Fresh s) (writes : List RegWrite) :
    StoresInBounds host s writes ↔ ProperRun host s writes :=
  storesInBounds_iff host hs.bounded writes

def rawHost : Host (Table (BitVec 32) 4) where
  asFloat24 := id
  asFloat32 := id
  differs := fun a b => decide (a ≠ b)
  drawn := fun s => s.gsSetup.uniformsF
  strayMask := fun _ => 0

def ShaderSetup.initial (zero : V) : ShaderSetup V where
  uniformsF := fun _ => zero
  uniformsB := fun _ => false
  uniformsI := fun _ => 0
  uniformQueue := {}
  uniformsDirty := true
  programCode := fun _ => 0
  swizzleData := fun _ => 0
  programCodeHashDirty := true
  swizzleDataHashDirty := true
  programCodePendingFixup := true
  hasFixup := false
  biggestProgramSize := 0
  biggestSwizzleSize := 0

def PicaCore.initial (zero : V) : PicaCore V where
  regArray := Function.update (Function.update (fun _ => 0) Reg.irqCompare 0x12345678) Reg.irqAutostop 1
  dirtyRegs := fun _ => BitVec.allOnes 64
  vsSetup := ShaderSetup.initial zero
  gsSetup := ShaderSetup.initial zero
  lightingLuts := fun _ _ => 0
  lightingLutDirty := 0xffffff
  fogLut := fun _ => 0
  fogLutDirty := true
  noiseTable := fun _ => 0
  colorMapTable := fun _ => 0
  alphaMapTable := fun _ => 0
  colorTable := fun _ => 0
  colorDiffTable := fun _ => 0
  proctexTableDirty := 0x3f
  inputDefaultAttributes := fun _ => zero
  immediate := ⟨fun _ => zero, 0, true, {}⟩
  cmdList := ⟨0, 0, 0⟩
  stopRequested := false
  interrupts := 0

/-- The tables of lighting with a type from 24 on do not exist, and a fifth word does not fit into the queue. -/
theorem initial_not_storesInBounds :
    ¬ StoresInBounds rawHost (PicaCore.initial fun _ => 0) [⟨0x1c5, 0x1f00, 0xf⟩, ⟨0x1c8, 0, 0xf⟩] ∧
    ¬ StoresInBounds rawHost (PicaCore.initial fun _ => 0)
      [⟨0x232, 0x10, 0xf⟩, ⟨0x233, 0, 0xf⟩, ⟨0x234, 0, 0xf⟩, ⟨0x235, 0, 0xf⟩, ⟨0x233, 0, 0xf⟩, ⟨0x234, 0, 0xf⟩] := by
  constructor
  · intro h
    exact h 31 24 rfl
  · intro h
    exact h 4 4 rfl

/-- A word of a lighting table, and one of the program of the vertex shader. -/
theorem initial_storesInBounds :
    Fresh (PicaCore.initial (V := Table (BitVec 32) 4) fun _ => 0) ∧
    (StoresInBounds rawHost (PicaCore.initial fun _ => 0) [⟨0x1c5, 0x17ff, 0xf⟩, ⟨0x1c8, 1, 0xf⟩, ⟨0x2cc, 2, 0xf⟩] ↔
      ProperRun rawHost (PicaCore.initial fun _ => 0) [⟨0x1c5, 0x17ff, 0xf⟩, ⟨0x1c8, 1, 0xf⟩, ⟨0x2cc, 2, 0xf⟩]) := by
  have hfresh : Fresh (PicaCore.initial (V := Table (BitVec 32) 4) fun _ => 0) := ⟨rfl, rfl, rfl⟩
  exact ⟨hfresh, run_storesInBounds_iff rawHost hfresh _⟩

end Pica

end SweepDSEmu.VideoCore
