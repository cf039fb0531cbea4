import SweepDSEmu.VideoCore.PicaRegisters

/-!
# Vertices of a draw

`LoadVertices` runs the vertex shader for each vertex of a draw and hands its outputs to the geometry pipeline.  For an
indexed draw the outputs of the last 64 shader runs are kept by index.

* The geometry pipeline and the shader engine are parameters, and so is what is read of memory, which does not change
  during a draw.
* Arrays that the source does not initialize have values that are parameters.
-/

namespace SweepDSEmu.VideoCore

namespace Pica

abbrev AttributeBuffer (V : Type) := Table V 16

/-- A shader unit.  Its temporaries, address registers and conditional codes are in `rest`. -/
structure ShaderUnit (V S : Type) where
  input : Table V 16
  output : Table V 16
  rest : S

structure ShaderRegs where
  regArray : Reg → BitVec 32
  unit : Reg

namespace ShaderRegs

variable (config : ShaderRegs)

def maxInputAttributeIndex : Nat := bitField 0 4 (config.regArray (config.unit + 0x09))

def outputMask : Nat := bitField 0 16 (config.regArray (config.unit + 0x0d))

def getRegisterForAttribute (attributeIndex : Nat) : Fin 16 :=
  let low := config.regArray (config.unit + 0x0b)
  let high := config.regArray (config.unit + 0x0c)
  Fin.ofNat 16 ((high.toNat * 2 ^ 32 + low.toNat) / 2 ^ (attributeIndex * 4))

def outputRegs : List (Fin 16) := (List.finRange 16).filter fun reg => config.outputMask.testBit reg.val

end ShaderRegs

namespace ShaderUnit

variable {V S : Type}

def loadAttribute (config : ShaderRegs) (buffer : AttributeBuffer V) (input : Table V 16) (attr : Nat) : Table V 16 :=
  Function.update input (config.getRegisterForAttribute attr) (buffer (Fin.ofNat 16 attr))

def loadInput (u : ShaderUnit V S) (config : ShaderRegs) (buffer : AttributeBuffer V) : ShaderUnit V S :=
  { u with
    input := (List.range (config.maxInputAttributeIndex + 1)).foldl (loadAttribute config buffer) u.input }

/-- The written output registers come first in the buffer, and the rest of it stays. -/
def writeOutput (u : ShaderUnit V S) (config : ShaderRegs) (buffer : AttributeBuffer V) : AttributeBuffer V := fun i =>
  match config.outputRegs[i.val]? with
  | some reg => u.output reg
  | none => buffer i

end ShaderUnit

structure VertexLoader (V : Type) where
  numTotalAttributes : Nat
  isDefault : Fin 16 → Bool
  sources : Fin 16 → Nat
  strides : Fin 16 → Nat
  elements : Fin 16 → Nat
  read : Nat → Fin 16 → V

namespace VertexLoader

variable {V : Type}

def loadVertex (l : VertexLoader V) (baseAddress vertex : Nat) (input defaults : AttributeBuffer V) :
    AttributeBuffer V := fun i =>
  if i.val < l.numTotalAttributes then
    if l.isDefault i then defaults i
    else if l.elements i = 0 then input i
    else l.read ((baseAddress + l.sources i + l.strides i * vertex) % 2 ^ 32) i
  else input i

def Loads (l : VertexLoader V) (i : Fin 16) : Prop :=
  i.val < l.numTotalAttributes ∧ (l.isDefault i = true ∨ l.elements i ≠ 0)

end VertexLoader

structure GeometryPipeline (P V : Type) where
  reconfigure : P → Except Fault P
  needIndexInput : P → Bool
  submitIndex : P → Nat → Except Fault P
  submitVertex : P → AttributeBuffer V → Except Fault P

inductive Submission (V : Type) where
  | index (val : Nat)
  | vertex (buffer : AttributeBuffer V)

/-- What a draw reads of registers and memory. -/
structure Draw (V S : Type) where
  isIndexed : Bool
  indexU16 : Bool
  indexAddress8 : Nat → BitVec 8
  indexAddress16 : Nat → BitVec 16
  /-- There is no index buffer at its address. -/
  indexAddressNull : Bool
  numVertices : Nat
  vertexOffset : Nat
  baseAddress : Nat
  loader : VertexLoader V
  defaults : AttributeBuffer V
  config : ShaderRegs
  /-- The shader, with its program and its uniforms. -/
  run : ShaderUnit V S → ShaderUnit V S
  /-- `input` of an iteration, which is not initialized. -/
  stray : Nat → AttributeBuffer V

namespace Draw

variable {V S P : Type} (d : Draw V S) (g : GeometryPipeline P V)

def vertexAt (index : Nat) : Nat :=
  if d.isIndexed then if d.indexU16 then (d.indexAddress16 index).toNat else (d.indexAddress8 index).toNat
  else (index + d.vertexOffset) % 2 ^ 32

structure Progress (V S P : Type) where
  pipeline : P
  unit : ShaderUnit V S
  vsOutput : AttributeBuffer V
  submissions : List (Submission V)

structure VertexCache (V : Type) where
  valid : Table Bool 64
  ids : Table Nat 64
  entries : Table (AttributeBuffer V) 64
  pos : Fin 64

namespace VertexCache

def find (c : VertexCache V) (vertex : Nat) : Option (Fin 64) :=
  (List.finRange 64).find? fun i => c.valid i && vertex = c.ids i

def insert (c : VertexCache V) (vertex : Nat) (output : AttributeBuffer V) : VertexCache V where
  valid := Function.update c.valid c.pos true
  ids := Function.update c.ids c.pos (vertex % 2 ^ 16)
  entries := Function.update c.entries c.pos output
  pos := c.pos + 1

end VertexCache

variable {d g}

def submitIndex (d : Draw V S) (g : GeometryPipeline P V) (index : Nat) (s : Progress V S P) :
    Except Fault (Progress V S P) := do
  let pipeline ← g.submitIndex s.pipeline (d.vertexAt index)
  return { s with pipeline := pipeline, submissions := s.submissions ++ [.index (d.vertexAt index)] }

def shade (d : Draw V S) (index : Nat) (s : Progress V S P) : Progress V S P :=
  let input := d.loader.loadVertex d.baseAddress (d.vertexAt index) (d.stray index) d.defaults
  let unit := d.run (s.unit.loadInput d.config input)
  { s with unit := unit, vsOutput := unit.writeOutput d.config s.vsOutput }

def submitVertex (g : GeometryPipeline P V) (s : Progress V S P) : Except Fault (Progress V S P) := do
  let pipeline ← g.submitVertex s.pipeline s.vsOutput
  return { s with pipeline := pipeline, submissions := s.submissions ++ [.vertex s.vsOutput] }

def turn (d : Draw V S) (g : GeometryPipeline P V) (index : Nat) (s : Progress V S P × VertexCache V) :
    Except Fault (Progress V S P × VertexCache V) :=
  if d.isIndexed then
    if g.needIndexInput s.1.pipeline then (d.submitIndex g index s.1).map fun p => (p, s.2)
    else
      match s.2.find (d.vertexAt index) with
      | some i => (submitVertex g { s.1 with vsOutput := s.2.entries i }).map fun p => (p, s.2)
      | none =>
        let p := d.shade index s.1
        (submitVertex g p).map fun p' => (p', s.2.insert (d.vertexAt index) p.vsOutput)
  else (submitVertex g (d.shade index s.1)).map fun p => (p, s.2)

def plainTurn (d : Draw V S) (g : GeometryPipeline P V) (index : Nat) (s : Progress V S P) :
    Except Fault (Progress V S P) :=
  if d.isIndexed && g.needIndexInput s.pipeline then d.submitIndex g index s else submitVertex g (d.shade index s)

def prepare (d : Draw V S) (g : GeometryPipeline P V) (pipeline : P) : Except Fault P := do
  let pipeline ← g.reconfigure pipeline
  if g.needIndexInput pipeline && !d.isIndexed then .error .assertion else .ok pipeline

/-- `LoadVertices`, with the values of the variables that are not initialized. -/
def loadVertices (d : Draw V S) (g : GeometryPipeline P V) (pipeline : P) (unit : ShaderUnit V S)
    (vsOutput : AttributeBuffer V) (ids : Table Nat 64) (entries : Table (AttributeBuffer V) 64) :
    Except Fault (P × List (Submission V)) :=
  if d.indexAddressNull then .ok (pipeline, [])
  else do
    let pipeline ← d.prepare g pipeline
    let s ← (List.range d.numVertices).foldlM (fun s index => d.turn g index s)
      (⟨pipeline, unit, vsOutput, []⟩, ⟨fun _ => false, ids, entries, 0⟩)
    return (s.1.pipeline, s.1.submissions)

def loadVerticesPlain (d : Draw V S) (g : GeometryPipeline P V) (pipeline : P) (unit : ShaderUnit V S)
    (vsOutput : AttributeBuffer V) : Except Fault (P × List (Submission V)) :=
  if d.indexAddressNull then .ok (pipeline, [])
  else do
    let pipeline ← d.prepare g pipeline
    let s ← (List.range d.numVertices).foldlM (fun s index => d.plainTurn g index s) ⟨pipeline, unit, vsOutput, []⟩
    return (s.pipeline, s.submissions)

def LoadedRegister (d : Draw V S) (r : Fin 16) : Prop :=
  ∃ attr ≤ d.config.maxInputAttributeIndex, d.config.getRegisterForAttribute attr = r ∧
    d.loader.Loads (Fin.ofNat 16 attr) ∧
      ∀ later ≤ d.config.maxInputAttributeIndex, attr < later → d.config.getRegisterForAttribute later ≠ r

def Determined (d : Draw V S) : Prop :=
  ∀ u u' : ShaderUnit V S, (∀ r, d.LoadedRegister r → u.input r = u'.input r) →
    ∀ reg ∈ d.config.outputRegs, (d.run u).output reg = (d.run u').output reg

/-- The buffers agree on what `WriteOutput` leaves. -/
def SameRest (d : Draw V S) (buffer buffer' : AttributeBuffer V) : Prop :=
  ∀ i, d.config.outputRegs[i.val]? = none → buffer i = buffer' i

def OutputFor (d : Draw V S) (rest : AttributeBuffer V) (vertex : Nat) (buffer : AttributeBuffer V) : Prop :=
  ∀ index (s : Progress V S P), d.vertexAt index = vertex → d.SameRest rest s.vsOutput →
    (d.shade index s).vsOutput = buffer

private theorem foldl_loadAttribute (config : ShaderRegs) (buffer : AttributeBuffer V) (input : Table V 16)
    (r : Fin 16) (attr : Nat) (hr : config.getRegisterForAttribute attr = r) :
    ∀ n, attr < n → (∀ later < n, attr < later → config.getRegisterForAttribute later ≠ r) →
      (List.range n).foldl (ShaderUnit.loadAttribute config buffer) input r = buffer (Fin.ofNat 16 attr) := by
  intro n
  induction n with
  | zero => intro h; omega
  | succ n ih =>
    intro h hlater
    rw [List.range_succ, List.foldl_append, List.foldl_cons, List.foldl_nil, ShaderUnit.loadAttribute]
    rcases Nat.lt_or_ge attr n with hn | hn
    · have hne : config.getRegisterForAttribute n ≠ r := hlater n (by omega) hn
      rw [Function.update_of_ne (Ne.symm hne)]
      exact ih hn fun later hl => hlater later (by omega)
    · obtain rfl : attr = n := by omega
      rw [hr, Function.update_self]

private theorem loadVertex_of_loads (l : VertexLoader V) {i : Fin 16} (h : l.Loads i) (base vertex : Nat)
    (input input' defaults : AttributeBuffer V) :
    l.loadVertex base vertex input defaults i = l.loadVertex base vertex input' defaults i := by
  obtain ⟨hi, hloads⟩ := h
  rcases hloads with hdefault | helements
  · simp [VertexLoader.loadVertex, hi, hdefault]
  · simp [VertexLoader.loadVertex, hi, helements]

theorem loadInput_loaded {d : Draw V S} {r : Fin 16} (h : d.LoadedRegister r) (u u' : ShaderUnit V S) (vertex : Nat)
    (stray stray' : AttributeBuffer V) :
    (u.loadInput d.config (d.loader.loadVertex d.baseAddress vertex stray d.defaults)).input r =
      (u'.loadInput d.config (d.loader.loadVertex d.baseAddress vertex stray' d.defaults)).input r := by
  obtain ⟨attr, hattr, hr, hloads, hlast⟩ := h
  have hlater : ∀ later < d.config.maxInputAttributeIndex + 1, attr < later →
      d.config.getRegisterForAttribute later ≠ r := fun later hl => hlast later (by omega)
  simp only [ShaderUnit.loadInput]
  rw [foldl_loadAttribute _ _ _ _ _ hr _ (by omega) hlater,
    foldl_loadAttribute _ _ _ _ _ hr _ (by omega) hlater]
  exact loadVertex_of_loads d.loader hloads _ _ _ _ _

theorem SameRest.trans {d : Draw V S} {a b c : AttributeBuffer V} (h : d.SameRest a b) (h' : d.SameRest b c) :
    d.SameRest a c := fun i hi => (h i hi).trans (h' i hi)

theorem sameRest_shade (d : Draw V S) (index : Nat) (s : Progress V S P) :
    d.SameRest s.vsOutput (d.shade index s).vsOutput := by
  intro i hi
  simp only [shade, ShaderUnit.writeOutput, hi]

variable {rest : AttributeBuffer V} {s : Progress V S P × VertexCache V}

theorem outputFor_shade {d : Draw V S} (hd : d.Determined) (index : Nat)
    {s : Progress V S P} (hs : d.SameRest rest s.vsOutput) :
    OutputFor (P := P) d rest (d.vertexAt index) (d.shade index s).vsOutput := by
  intro index' s' hvertex hs'
  funext i
  simp only [shade, ShaderUnit.writeOutput]
  cases hreg : d.config.outputRegs[i.val]? with
  | none => rw [← hs i hreg, ← hs' i hreg]
  | some reg =>
    have hmem : reg ∈ d.config.outputRegs := List.mem_of_getElem? hreg
    refine hd _ _ (fun r hr => ?_) reg hmem
    rw [hvertex]
    exact loadInput_loaded hr _ _ _ _ _

/-- The cached loop has come as far as the plain one, and its valid entries hold outputs of their vertices. -/
structure Tracks (d : Draw V S) (rest : AttributeBuffer V) (s : Progress V S P × VertexCache V)
    (p : Progress V S P) : Prop where
  pipeline : s.1.pipeline = p.pipeline
  submissions : s.1.submissions = p.submissions
  vsOutput : s.1.vsOutput = p.vsOutput
  sameRest : d.SameRest rest p.vsOutput
  entries : ∀ i, s.2.valid i = true → OutputFor (P := P) d rest (s.2.ids i) (s.2.entries i)

theorem VertexCache.find_some {c : VertexCache V} {vertex : Nat} {i : Fin 64} (h : c.find vertex = some i) :
    c.valid i = true ∧ c.ids i = vertex := by
  have := List.find?_some h
  simp only [Bool.and_eq_true, decide_eq_true_eq] at this
  exact ⟨this.1, this.2.symm⟩

theorem vertexAt_lt {d : Draw V S} (hindexed : d.isIndexed = true) (index : Nat) : d.vertexAt index < 2 ^ 16 := by
  rw [vertexAt, if_pos hindexed]
  split
  · exact (d.indexAddress16 index).isLt
  · exact Nat.lt_trans (d.indexAddress8 index).isLt (by decide)

/-- Both results are faults, the same ones, or both are states that are related. -/
def Alike {α β : Type} (R : α → β → Prop) : Except Fault α → Except Fault β → Prop
  | .error e, .error e' => e = e'
  | .ok a, .ok b => R a b
  | _, _ => False

theorem Alike.bind {α β α' β' : Type} {R : α → β → Prop} {R' : α' → β' → Prop} {x : Except Fault α}
    {y : Except Fault β} {f : α → Except Fault α'} {h : β → Except Fault β'} (hxy : Alike R x y)
    (hf : ∀ a b, R a b → Alike R' (f a) (h b)) : Alike R' (x >>= f) (y >>= h) := by
  cases x with
  | error e =>
    cases y with
    | error e' => exact hxy
    | ok b => exact hxy.elim
  | ok a =>
    cases y with
    | error e' => exact hxy.elim
    | ok b => exact hf a b hxy

theorem Tracks.insert {d : Draw V S}
    {p : Progress V S P} (h : d.Tracks rest s p) {vertex : Nat} (hlt : vertex < 2 ^ 16) {buffer : AttributeBuffer V}
    (hbuffer : OutputFor (P := P) d rest vertex buffer) (i : Fin 64)
    (hi : (s.2.insert vertex buffer).valid i = true) :
    OutputFor (P := P) d rest ((s.2.insert vertex buffer).ids i) ((s.2.insert vertex buffer).entries i) := by
  by_cases hpos : i = s.2.pos
  · subst hpos
    simpa only [VertexCache.insert, Function.update_self, Nat.mod_eq_of_lt hlt] using hbuffer
  · simp only [VertexCache.insert, Function.update_of_ne hpos] at hi ⊢
    exact h.entries i hi

theorem submitVertex_alike {d : Draw V S} {q p : Progress V S P} {c : VertexCache V} (h : d.Tracks rest (q, c) p) :
    Alike (d.Tracks rest) ((submitVertex g q).map fun q' => (q', c)) (submitVertex g p) := by
  have hpipeline : q.pipeline = p.pipeline := h.pipeline
  have hvs : q.vsOutput = p.vsOutput := h.vsOutput
  have hsubmissions : q.submissions = p.submissions := h.submissions
  unfold submitVertex
  rw [hpipeline, hvs, hsubmissions]
  cases g.submitVertex p.pipeline p.vsOutput with
  | error e => rfl
  | ok pipeline => exact ⟨rfl, rfl, rfl, h.sameRest, h.entries⟩

theorem submitIndex_alike {d : Draw V S} {q p : Progress V S P} {c : VertexCache V}
    (h : d.Tracks rest (q, c) p) (index : Nat) :
    Alike (d.Tracks rest) ((d.submitIndex g index q).map fun q' => (q', c)) (d.submitIndex g index p) := by
  have hpipeline : q.pipeline = p.pipeline := h.pipeline
  have hsubmissions : q.submissions = p.submissions := h.submissions
  unfold submitIndex
  rw [hpipeline, hsubmissions]
  cases g.submitIndex p.pipeline (d.vertexAt index) with
  | error e => rfl
  | ok pipeline => exact ⟨rfl, rfl, h.vsOutput, h.sameRest, h.entries⟩

theorem Tracks.shade {d : Draw V S} (hd : d.Determined) {p : Progress V S P} (h : d.Tracks rest s p) (index : Nat) :
    d.Tracks rest (d.shade index s.1, s.2) (d.shade index p) where
  pipeline := h.pipeline
  submissions := h.submissions
  vsOutput := by
    have hs : d.SameRest rest s.1.vsOutput := by
      rw [h.vsOutput]
      exact h.sameRest
    exact (outputFor_shade hd index h.sameRest) index s.1 rfl hs
  sameRest := h.sameRest.trans (sameRest_shade d index p)
  entries := h.entries

theorem turn_alike {d : Draw V S} (hd : d.Determined) {p : Progress V S P} (h : d.Tracks rest s p) (index : Nat) :
    Alike (d.Tracks rest) (d.turn g index s) (d.plainTurn g index p) := by
  have hshade := h.shade hd index
  unfold turn plainTurn
  by_cases hindexed : d.isIndexed = true
  · rw [if_pos hindexed, hindexed, Bool.true_and, h.pipeline]
    by_cases hneed : g.needIndexInput p.pipeline = true
    · rw [if_pos hneed, if_pos hneed]
      exact submitIndex_alike h index
    · rw [if_neg hneed, if_neg hneed]
      cases hfind : s.2.find (d.vertexAt index) with
      | some i =>
        -- the entry holds what the run of the plain loop leaves
        obtain ⟨hvalid, hid⟩ := VertexCache.find_some hfind
        have hentry : (d.shade index p).vsOutput = s.2.entries i := h.entries i hvalid index p hid.symm h.sameRest
        exact submitVertex_alike ⟨hshade.pipeline, hshade.submissions, hentry.symm, hshade.sameRest, h.entries⟩
      | none =>
        have hbuffer : OutputFor (P := P) d rest (d.vertexAt index) (d.shade index s.1).vsOutput :=
          outputFor_shade hd index (by rw [h.vsOutput]; exact h.sameRest)
        have hentries := h.insert (vertexAt_lt hindexed index) hbuffer
        exact submitVertex_alike ⟨hshade.pipeline, hshade.submissions, hshade.vsOutput, hshade.sameRest, hentries⟩
  · rw [if_neg hindexed, if_neg (by simp [hindexed])]
    exact submitVertex_alike hshade

theorem turns_alike {d : Draw V S} (hd : d.Determined) (indices : List Nat) :
    ∀ {s : Progress V S P × VertexCache V} {p : Progress V S P}, d.Tracks rest s p →
      Alike (d.Tracks rest) (indices.foldlM (fun s index => d.turn g index s) s)
        (indices.foldlM (fun p index => d.plainTurn g index p) p) := by
  induction indices with
  | nil => exact fun h => h
  | cons index rest ih =>
    intro s p h
    exact (turn_alike hd h index).bind fun _ _ h' => ih h'

/-- The vertex cache is transparent. -/
theorem loadVertices_eq_plain (d : Draw V S) (hd : d.Determined) (g : GeometryPipeline P V) (pipeline : P)
    (unit : ShaderUnit V S) (vsOutput : AttributeBuffer V) (ids : Table Nat 64)
    (entries : Table (AttributeBuffer V) 64) :
    d.loadVertices g pipeline unit vsOutput ids entries = d.loadVerticesPlain g pipeline unit vsOutput := by
  unfold loadVertices loadVerticesPlain
  split
  · rfl
  · cases d.prepare g pipeline with
    | error e => rfl
    | ok pipeline =>
      have hstart : d.Tracks vsOutput (⟨pipeline, unit, vsOutput, []⟩, ⟨fun _ => false, ids, entries, 0⟩)
          (⟨pipeline, unit, vsOutput, []⟩ : Progress V S P) :=
        ⟨rfl, rfl, rfl, fun _ _ => rfl, fun _ h => by simp at h⟩
      have hloop := turns_alike (g := g) hd (List.range d.numVertices) hstart
      simp only [bind, Except.bind]
      revert hloop
      cases (List.range d.numVertices).foldlM (fun s index => d.turn g index s)
          ((⟨pipeline, unit, vsOutput, []⟩, ⟨fun _ => false, ids, entries, 0⟩) :
            Progress V S P × VertexCache V) <;>
        cases (List.range d.numVertices).foldlM (fun s index => d.plainTurn g index s)
          (⟨pipeline, unit, vsOutput, []⟩ : Progress V S P) <;>
        intro hloop
      · exact congrArg Except.error hloop
      · exact hloop.elim
      · exact hloop.elim
      · have hp := hloop.pipeline
        have hs := hloop.submissions
        exact congrArg Except.ok (Prod.ext hp hs)

def copyingDraw : Draw Nat Unit where
  isIndexed := true
  indexU16 := false
  indexAddress8 := fun _ => 7
  indexAddress16 := fun _ => 0
  indexAddressNull := false
  numVertices := 3
  vertexOffset := 0
  baseAddress := 0
  loader := ⟨1, fun _ => false, fun _ => 0, fun _ => 4, fun _ => 1, fun address _ => address⟩
  defaults := fun _ => 0
  config := ⟨fun r => if r = 0x2bd then 1 else 0, 0x2b0⟩
  run := fun u => { u with output := u.input }
  stray := fun index _ => index

def pointPipeline : GeometryPipeline Unit Nat where
  reconfigure := fun _ => .ok ()
  needIndexInput := fun _ => false
  submitIndex := fun _ _ => .error .assertion
  submitVertex := fun _ _ => .ok ()

private theorem copyingDraw_determined : copyingDraw.Determined := by
  intro u u' h reg hreg
  have hregs : copyingDraw.config.outputRegs = [0] := by decide
  obtain rfl : reg = 0 := by simpa [hregs] using hreg
  have hmax : copyingDraw.config.maxInputAttributeIndex = 0 := by decide
  refine h 0 ⟨0, by rw [hmax], by decide, ⟨by decide, .inr (by decide)⟩, fun later hl hpos => ?_⟩
  omega

theorem copyingDraw_loadVertices :
    copyingDraw.Determined ∧
      copyingDraw.loadVertices pointPipeline () ⟨fun _ => 3, fun _ => 3, ()⟩ (fun _ => 5) (fun _ => 7) (fun _ _ => 9) =
        copyingDraw.loadVerticesPlain pointPipeline () ⟨fun _ => 3, fun _ => 3, ()⟩ (fun _ => 5) :=
  ⟨copyingDraw_determined, loadVertices_eq_plain copyingDraw copyingDraw_determined _ _ _ _ _ _⟩

end Draw

end Pica

end SweepDSEmu.VideoCore
