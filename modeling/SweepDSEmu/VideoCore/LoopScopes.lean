import SweepDSEmu.VideoCore.ShaderInterpreter
import Mathlib.Tactic.Ring

/-!
# Loops of the shader interpreter

What a `LOOP` is said to do, told without the stack of the interpreter: `LoopScope` counts the passes of a body that
have ended, and knows the loop register from before the loop.

* `AsStated` is what is to hold in every state of a run.  Jumps need not stay inside of a scope for it.
* The interpreter keeps as the previous value of the loop register the one that the `LOOP` has just set.
-/

namespace SweepDSEmu.VideoCore.Interpreter

structure LoopScope where
  first : Nat
  last : Nat
  uniform : IntUniform
  /-- The loop register in front of the `LOOP`. -/
  entered : Int
  /-- How often the body has come to its end. -/
  passes : Nat

def LoopScope.value (scope : LoopScope) : Int := scope.uniform.y.toNat + scope.passes * scope.uniform.z.toNat

def endPass (offset : Nat) : List LoopScope → List LoopScope
  | [] => []
  | scope :: rest =>
    if scope.last = offset then
      if scope.passes < scope.uniform.x.toNat then { scope with passes := scope.passes + 1 } :: rest
      else endPass offset rest
    else scope :: rest

structure Tracked (F E : Type) where
  state : State F E
  scopes : List LoopScope

section Loops

variable {F E : Type} [Field F] [LinearOrder F] (fn : Functions F) (g : GeometryEmitter F E) (setup : ShaderSetup F)

namespace Tracked

def start (unit : ShaderUnit F E) (entryPoint : Nat) : Tracked F E := ⟨⟨unit, entryPoint, [], [], []⟩, []⟩

def offset (t : Tracked F E) : Nat := t.state.programCounter

def opened (t : Tracked F E) : List LoopScope :=
  match fetch setup t.state with
  | .loop flow =>
    ⟨t.offset + 1, flow.destOffset, setup.i flow.intUniformId, t.state.unit.aL, 0⟩ :: t.scopes
  | _ => t.scopes

def breaks (t : Tracked F E) : Bool :=
  match fetch setup t.state with
  | .break => true
  | .breakc flow => evaluateCondition t.state.unit flow
  | _ => false

def Next (t t' : Tracked F E) : Prop :=
  step fn g setup t.state = some (t'.state, false) ∧ t'.scopes = endPass t.offset (t.opened setup)

def Reaches : Tracked F E → Tracked F E → Prop := Relation.ReflTransGen (Next fn g setup)

/-- The pass of the innermost scope ends, and what comes then. -/
structure Ends (t : Tracked F E) (scope : LoopScope) (rest : List LoopScope) (s' : State F E) : Prop where
  opened : t.opened setup = scope :: rest
  last : scope.last = t.offset
  step : ∃ stop, step fn g setup t.state = some (s', stop)

/-- Scopes are at most four deep, no two of them end at the same instruction, and none is left by a break. -/
structure Nested (t : Tracked F E) : Prop where
  depth : ∀ flow, fetch setup t.state = .loop flow → t.scopes.length < 4
  ends : ∀ flow, fetch setup t.state = .loop flow → ∀ scope ∈ t.scopes, flow.destOffset ≠ scope.last
  unbroken : t.scopes ≠ [] → t.breaks setup = false

structure AsStated (t : Tracked F E) : Prop where
  register : ∀ scope rest, t.scopes = scope :: rest → t.state.unit.aL = scope.value
  repeats : ∀ scope rest s', Ends fn g setup t scope rest s' → scope.passes < scope.uniform.x.toNat →
    s'.programCounter = scope.first
  leaves : ∀ scope rest s', Ends fn g setup t scope rest s' → ¬ scope.passes < scope.uniform.x.toNat →
    s'.programCounter = scope.last + 1
  restored : ∀ scope rest s', Ends fn g setup t scope rest s' → ¬ scope.passes < scope.uniform.x.toNat → rest ≠ [] →
    s'.unit.aL = scope.entered
  outermost : ∀ scope s', Ends fn g setup t scope [] s' → ¬ scope.passes < scope.uniform.x.toNat →
    s'.unit.aL = scope.uniform.y.toNat + (scope.uniform.x.toNat + 1) * scope.uniform.z.toNat

/-- An inner scope that is left here was entered with the value its own uniform sets. -/
def EntersWell (t : Tracked F E) : Prop :=
  ∀ scope rest s', Ends fn g setup t scope rest s' → ¬ scope.passes < scope.uniform.x.toNat → rest ≠ [] →
    scope.entered = scope.uniform.y.toNat

end Tracked

end Loops

structure Matches (element : LoopStackElement) (scope : LoopScope) : Prop where
  entry : element.entryAddress = scope.first
  last : element.endAddress = scope.last + 1
  counter : element.loopDowncounter.toNat + scope.passes = scope.uniform.x.toNat
  increment : element.addressIncrement = scope.uniform.z
  previous : element.previousAL = scope.uniform.y

structure InStep (loopStack : List LoopStackElement) (scopes : List LoopScope) : Prop where
  elements : List.Forall₂ Matches loopStack scopes
  ends : scopes.Pairwise fun scope outer => scope.last ≠ outer.last

def RegisterOk : Int → List LoopScope → Prop
  | _, [] => True
  | register, scope :: rest => register = scope.value ∧ RegisterOk scope.entered rest

section Scopes

variable {F E : Type}

variable (s : State F E)

@[simp] theorem closeCallScopes_unit (offset : Nat) : (s.closeCallScopes offset).unit = s.unit := rfl

@[simp] theorem closeCallScopes_loopStack (offset : Nat) :
    (s.closeCallScopes offset).loopStack = s.loopStack := rfl

@[simp] theorem closeIfScope_unit (offset : Nat) : (s.closeIfScope offset).unit = s.unit := by
  unfold State.closeIfScope
  split
  · rfl
  · split <;> rfl

@[simp] theorem closeIfScope_loopStack (offset : Nat) : (s.closeIfScope offset).loopStack = s.loopStack := by
  unfold State.closeIfScope
  split
  · rfl
  · split <;> rfl

private theorem doIf_keeps (flow : FlowControl) (condition : Bool) :
    (s.doIf flow condition).loopStack = s.loopStack ∧ (s.doIf flow condition).unit = s.unit := by
  unfold State.doIf
  split <;> exact ⟨rfl, rfl⟩

private theorem endPass_rest {scope : LoopScope} {rest : List LoopScope} {offset : Nat}
    (h : (scope :: rest).Pairwise fun scope outer => scope.last ≠ outer.last) (hlast : scope.last = offset) :
    endPass offset rest = rest := by
  cases rest with
  | nil => rfl
  | cons outer rest =>
    have hne : scope.last ≠ outer.last := (List.pairwise_cons.mp h).1 outer (by simp)
    rw [endPass, if_neg (fun houter => hne (hlast.trans houter.symm))]

/-- What is left of the scopes that end here, in the interpreter. -/
structure Closes (mid s' : State F E) (scope : LoopScope) (rest : List LoopScope) (offset : Nat) : Prop where
  repeats : scope.last = offset → scope.passes < scope.uniform.x.toNat →
    s'.programCounter = scope.first ∧ s'.unit.aL = mid.unit.aL + scope.uniform.z.toNat
  leaves : scope.last = offset → ¬ scope.passes < scope.uniform.x.toNat →
    s'.programCounter = scope.last + 1 ∧
      s'.unit.aL = if rest = [] then mid.unit.aL + scope.uniform.z.toNat else scope.uniform.y.toNat
  inside : scope.last ≠ offset → s'.unit.aL = mid.unit.aL

private theorem toNat_sub_one_of_ne_zero {b : BitVec 8} (h : b ≠ 0) : (b - 1).toNat = b.toNat - 1 := by
  have : b.toNat ≠ 0 := fun hzero => h (BitVec.eq_of_toNat_eq hzero)
  have := b.isLt
  simp
  omega

private theorem closeLoopScope_closes {mid : State F E} {scope : LoopScope} {rest : List LoopScope}
    (hin : InStep mid.loopStack (scope :: rest)) (offset : Nat) :
    InStep (mid.closeLoopScope offset false).loopStack (endPass offset (scope :: rest)) ∧
      Closes mid (mid.closeLoopScope offset false) scope rest offset := by
  obtain ⟨elements, hends⟩ := hin
  cases hstack : mid.loopStack with
  | nil => simp [hstack] at elements
  | cons loop stack =>
    rw [hstack] at elements
    obtain ⟨hmatch, htail⟩ := List.forall₂_cons.mp elements
    have hnil : rest = [] ↔ stack = [] := by
      rw [← List.length_eq_zero_iff, ← List.length_eq_zero_iff, htail.length_eq]
    have hcounter := hmatch.counter
    by_cases hlast : scope.last = offset
    · subst hlast
      by_cases hpasses : scope.passes < scope.uniform.x.toNat
      · have hdown : loop.loopDowncounter ≠ 0 := by
          intro h0
          rw [h0] at hcounter
          simp at hcounter
          omega
        have hdec := toNat_sub_one_of_ne_zero hdown
        simp only [State.closeLoopScope, hstack, hmatch.last, true_or, if_true, endPass, hpasses, Bool.not_false,
          true_and, if_pos hdown]
        refine ⟨⟨.cons ⟨hmatch.entry, rfl, ?_, hmatch.increment, hmatch.previous⟩ htail, ?_⟩, ?_, ?_, ?_⟩
        · dsimp only
          omega
        · exact List.pairwise_cons.mpr (List.pairwise_cons.mp hends)
        · intro _ _
          exact ⟨hmatch.entry, by simp [hmatch.increment]⟩
        · intro _ h
          exact absurd hpasses h
        · intro h
          exact absurd rfl h
      · have hdown : loop.loopDowncounter = 0 := by
          apply BitVec.eq_of_toNat_eq
          simp
          omega
        simp only [State.closeLoopScope, hstack, hmatch.last, true_or, if_true, hdown, ne_eq, not_true_eq_false,
          and_false, if_false]
        refine ⟨?_, ?_, ?_, ?_⟩
        · rw [endPass, if_pos rfl, if_neg hpasses, endPass_rest hends rfl]
          exact ⟨htail, (List.pairwise_cons.mp hends).2⟩
        · intro _ h
          exact absurd h hpasses
        · intro _ _
          refine ⟨rfl, ?_⟩
          by_cases hrest : rest = []
          · simp [hrest, hnil.mp hrest, hmatch.increment]
          · simp [hrest, mt hnil.mpr hrest, hmatch.previous]
        · intro h
          exact absurd rfl h
    · have hend : loop.endAddress ≠ offset + 1 := by
        rw [hmatch.last]
        omega
      have hsame : mid.closeLoopScope offset false = mid := by
        unfold State.closeLoopScope
        simp [hstack, hend]
      rw [hsame, endPass, if_neg hlast, hstack]
      exact ⟨⟨.cons hmatch htail, hends⟩, fun h => absurd h hlast, fun h => absurd h hlast, fun _ => rfl⟩

private theorem passes_of_leaves {mid : State F E} {scope : LoopScope} {rest : List LoopScope}
    (hin : InStep mid.loopStack (scope :: rest)) (h : ¬ scope.passes < scope.uniform.x.toNat) :
    scope.passes = scope.uniform.x.toNat := by
  cases hstack : mid.loopStack with
  | nil => simpa [hstack] using hin.elements
  | cons loop stack =>
    have elements := hin.elements
    rw [hstack] at elements
    have := (List.forall₂_cons.mp elements).1.counter
    omega

end Scopes

section Runs

variable {F E : Type} [Field F] [LinearOrder F] (fn : Functions F) (g : GeometryEmitter F E) (setup : ShaderSetup F)

private theorem execute_keeps {s : State F E} {instr : Instruction} {e : Executed F E}
    (h : execute fn g setup s instr = some e) (hloop : ∀ flow, instr ≠ .loop flow) :
    e.state.loopStack = s.loopStack ∧ e.state.unit.aL = s.unit.aL := by
  cases instr with
  | loop flow => exact absurd rfl (hloop flow)
  | arithmetic op srcInversed common =>
    obtain rfl := Option.some.inj h
    exact ⟨rfl, aL_arithmetic fn setup op srcInversed common s.unit⟩
  | multiplyAdd op mad =>
    obtain rfl := Option.some.inj h
    exact ⟨rfl, aL_multiplyAdd setup op mad s.unit⟩
  | jmpc flow | jmpu flow | callu flow | callc flow =>
    obtain rfl := Option.some.inj h
    split <;> exact ⟨rfl, rfl⟩
  | ifu flow | ifc flow =>
    obtain rfl := Option.some.inj h
    exact ⟨(doIf_keeps s flow _).1, congrArg ShaderUnit.aL (doIf_keeps s flow _).2⟩
  | emit =>
    simp only [execute] at h
    cases hemitter : s.unit.emitter with
    | none => simp [hemitter] at h
    | some emitter =>
      simp only [hemitter, Option.map_eq_some_iff] at h
      obtain ⟨emitter', -, rfl⟩ := h
      exact ⟨rfl, rfl⟩
  | setemit vertexId primEmit winding =>
    simp only [execute] at h
    cases hemitter : s.unit.emitter with
    | none => simp [hemitter] at h
    | some emitter =>
      simp only [hemitter, Option.some.injEq] at h
      subst h
      exact ⟨rfl, rfl⟩
  | endProgram | call flow | nop | «break» | breakc flow | other id =>
    obtain rfl := Option.some.inj h
    exact ⟨rfl, rfl⟩

variable {t : Tracked F E}

private theorem execute_isBreak {e : Executed F E}
    (h : execute fn g setup t.state (fetch setup t.state) = some e) : e.isBreak = t.breaks setup := by
  unfold Tracked.breaks
  cases hinstr : fetch setup t.state with
  | emit =>
    simp only [hinstr, execute] at h
    cases hemitter : t.state.unit.emitter with
    | none => simp [hemitter] at h
    | some emitter =>
      simp only [hemitter, Option.map_eq_some_iff] at h
      obtain ⟨emitter', -, rfl⟩ := h
      rfl
  | setemit vertexId primEmit winding =>
    simp only [hinstr, execute] at h
    cases hemitter : t.state.unit.emitter with
    | none => simp [hemitter] at h
    | some emitter =>
      simp only [hemitter, Option.some.injEq] at h
      subst h
      rfl
  | _ =>
    rw [hinstr] at h
    obtain rfl := Option.some.inj h
    rfl

/-- In front of the closing of a `LOOP` scope, the stack and the loop register are those of the open scopes. -/
private theorem step_opened (hin : InStep t.state.loopStack t.scopes) (hn : t.Nested setup)
    {s' : State F E} {stop : Bool} (h : step fn g setup t.state = some (s', stop)) :
    ∃ mid : State F E, s' = mid.closeLoopScope t.offset (t.breaks setup) ∧ InStep mid.loopStack (t.opened setup) ∧
        (RegisterOk t.state.unit.aL t.scopes → RegisterOk mid.unit.aL (t.opened setup)) := by
  obtain ⟨e, he, hs'⟩ := Option.map_eq_some_iff.mp h
  have hbreak := execute_isBreak fn g setup he
  rw [hbreak] at hs'
  refine ⟨_, (congrArg Prod.fst hs').symm, ?_⟩
  simp only [closeIfScope_loopStack, closeCallScopes_loopStack, closeIfScope_unit, closeCallScopes_unit]
  by_cases hloop : ∃ flow, fetch setup t.state = .loop flow
  · obtain ⟨flow, hflow⟩ := hloop
    have hopened : t.opened setup =
        ⟨t.offset + 1, flow.destOffset, setup.i flow.intUniformId, t.state.unit.aL, 0⟩ :: t.scopes := by
      simp [Tracked.opened, hflow]
    have hlength : t.state.loopStack.length < 4 := by
      rw [hin.elements.length_eq]
      exact hn.depth flow hflow
    rw [hflow] at he
    obtain rfl := Option.some.inj he
    rw [hopened]
    refine ⟨?_, fun hok => ⟨?_, hok⟩⟩
    · refine ⟨?_, List.pairwise_cons.mpr ⟨hn.ends flow hflow, hin.ends⟩⟩
      simp only [State.doLoop, pushBack_of_lt hlength]
      refine .cons ⟨rfl, rfl, rfl, rfl, ?_⟩ hin.elements
      -- the loop register was set before it was kept
      simp
    · simp [State.doLoop, LoopScope.value]
  · have hother : ∀ flow, fetch setup t.state ≠ .loop flow := fun flow hflow => hloop ⟨flow, hflow⟩
    have hopened : t.opened setup = t.scopes := by
      unfold Tracked.opened
      split
      · exact absurd ‹_› (hother _)
      · rfl
    obtain ⟨hstack, hregister⟩ := execute_keeps fn g setup he hother
    rw [hopened, hstack, hregister]
    exact ⟨hin, fun hok => hok⟩

omit [Field F] [LinearOrder F] in
private theorem breaks_opened (hn : t.Nested setup) (h : t.opened setup ≠ []) : t.breaks setup = false := by
  by_cases hscopes : t.scopes = []
  · unfold Tracked.breaks
    unfold Tracked.opened at h
    split at h
    · rename_i flow hflow
      simp [hflow]
    · exact absurd hscopes h
  · exact hn.unbroken hscopes

theorem InStep.step {t t' : Tracked F E} (hin : InStep t.state.loopStack t.scopes) (hn : t.Nested setup)
    (h : t.Next fn g setup t') : InStep t'.state.loopStack t'.scopes := by
  obtain ⟨hstep, hscopes⟩ := h
  obtain ⟨mid, hs', hmid, -⟩ := step_opened fn g setup hin hn hstep
  rw [hs', hscopes]
  cases hopened : t.opened setup with
  | nil =>
    rw [hopened] at hmid
    have hstack : mid.loopStack = [] := by
      cases hstack : mid.loopStack with
      | nil => rfl
      | cons loop stack => simpa [hstack] using hmid.elements
    simpa [State.closeLoopScope, hstack, endPass] using hmid
  | cons scope rest =>
    rw [breaks_opened setup hn (by simp [hopened])]
    rw [hopened] at hmid
    exact (closeLoopScope_closes hmid t.offset).1

private theorem ends_closes (hin : InStep t.state.loopStack t.scopes) (hn : t.Nested setup)
    {scope : LoopScope} {rest : List LoopScope} {s' : State F E} (h : t.Ends fn g setup scope rest s') :
    ∃ mid : State F E, Closes mid s' scope rest t.offset ∧ InStep mid.loopStack (scope :: rest) ∧
      (RegisterOk t.state.unit.aL t.scopes → RegisterOk mid.unit.aL (scope :: rest)) := by
  obtain ⟨hopened, -, stop, hstep⟩ := h
  obtain ⟨mid, rfl, hmid, hregister⟩ := step_opened fn g setup hin hn hstep
  rw [breaks_opened setup hn (by simp [hopened])]
  rw [hopened] at hmid hregister
  exact ⟨mid, (closeLoopScope_closes hmid t.offset).2, hmid, hregister⟩

private theorem value_next (scope : LoopScope) :
    ({ scope with passes := scope.passes + 1 } : LoopScope).value = scope.value + scope.uniform.z.toNat := by
  simp only [LoopScope.value]
  push_cast
  ring

theorem RegisterOk.step {t t' : Tracked F E} (hin : InStep t.state.loopStack t.scopes) (hn : t.Nested setup)
    (hwell : t.EntersWell fn g setup) (hok : RegisterOk t.state.unit.aL t.scopes) (h : t.Next fn g setup t') :
    RegisterOk t'.state.unit.aL t'.scopes := by
  obtain ⟨hstep, hscopes⟩ := h
  rw [hscopes]
  obtain ⟨mid, hs', hmid, hregister⟩ := step_opened fn g setup hin hn hstep
  cases hopened : t.opened setup with
  | nil => trivial
  | cons scope rest =>
    have hmidOk := hregister hok
    rw [hopened] at hmid hmidOk
    rw [breaks_opened setup hn (by simp [hopened])] at hs'
    have hcloses := (closeLoopScope_closes hmid t.offset).2
    rw [← hs'] at hcloses
    by_cases hlast : scope.last = t.offset
    · rw [endPass, if_pos hlast]
      split
      · rename_i hpasses
        rw [(hcloses.repeats hlast hpasses).2, hmidOk.1]
        exact ⟨(value_next scope).symm, hmidOk.2⟩
      · rename_i hpasses
        rw [endPass_rest hmid.ends hlast, (hcloses.leaves hlast hpasses).2]
        by_cases hrest : rest = []
        · rw [hrest]
          trivial
        · rw [if_neg hrest, ← hwell scope rest t'.state ⟨hopened, hlast, false, hstep⟩ hpasses hrest]
          exact hmidOk.2
    · rw [endPass, if_neg hlast, hcloses.inside hlast]
      exact hmidOk

theorem inStep_of_reaches {t₀ t : Tracked F E} (h₀ : InStep t₀.state.loopStack t₀.scopes)
    (hn : ∀ t, Tracked.Reaches fn g setup t₀ t → t.Nested setup) (h : Tracked.Reaches fn g setup t₀ t) :
    InStep t.state.loopStack t.scopes := by
  induction h with
  | refl => exact h₀
  | tail hreach hnext ih => exact ih.step fn g setup (hn _ hreach) hnext

theorem registerOk_of_reaches {t₀ t : Tracked F E} (h₀ : InStep t₀.state.loopStack t₀.scopes)
    (hok : RegisterOk t₀.state.unit.aL t₀.scopes) (hn : ∀ t, Tracked.Reaches fn g setup t₀ t → t.Nested setup)
    (hwell : ∀ t, Tracked.Reaches fn g setup t₀ t → t.EntersWell fn g setup)
    (h : Tracked.Reaches fn g setup t₀ t) : RegisterOk t.state.unit.aL t.scopes := by
  induction h with
  | refl => exact hok
  | tail hreach hnext ih =>
    exact ih.step fn g setup (inStep_of_reaches fn g setup h₀ hn hreach) (hn _ hreach) (hwell _ hreach) hnext

namespace Tracked

/-- In the runs of a program whose scopes are properly nested, the loops are as stated exactly if no inner loop that
comes to its end was entered with another loop register than the one it sets. -/
theorem asStated_iff (unit : ShaderUnit F E) (entryPoint : Nat)
    (hn : ∀ t, Reaches fn g setup (start unit entryPoint) t → t.Nested setup) :
    (∀ t, Reaches fn g setup (start unit entryPoint) t → t.AsStated fn g setup) ↔
      ∀ t, Reaches fn g setup (start unit entryPoint) t → t.EntersWell fn g setup := by
  have h₀ : InStep (start unit entryPoint : Tracked F E).state.loopStack (start unit entryPoint : Tracked F E).scopes :=
    ⟨.nil, .nil⟩
  constructor
  · intro h t ht scope rest s' hends hpasses hrest
    have hin := inStep_of_reaches fn g setup h₀ hn ht
    obtain ⟨mid, hcloses, -, -⟩ := ends_closes fn g setup hin (hn t ht) hends
    -- the interpreter restores what the uniform has
    have hset := (hcloses.leaves hends.last hpasses).2
    rw [if_neg hrest] at hset
    rw [← hset]
    exact ((h t ht).restored scope rest s' hends hpasses hrest).symm
  · intro hwell t ht
    have hin := inStep_of_reaches fn g setup h₀ hn ht
    have hok := registerOk_of_reaches fn g setup h₀ trivial hn hwell ht
    refine ⟨fun scope rest hscopes => ?_, fun scope rest s' hends hpasses => ?_, fun scope rest s' hends hpasses => ?_,
      fun scope rest s' hends hpasses hrest => ?_, fun scope s' hends hpasses => ?_⟩
    · rw [hscopes] at hok
      exact hok.1
    · obtain ⟨mid, hcloses, -, -⟩ := ends_closes fn g setup hin (hn t ht) hends
      exact (hcloses.repeats hends.last hpasses).1
    · obtain ⟨mid, hcloses, -, -⟩ := ends_closes fn g setup hin (hn t ht) hends
      exact (hcloses.leaves hends.last hpasses).1
    · obtain ⟨mid, hcloses, -, -⟩ := ends_closes fn g setup hin (hn t ht) hends
      rw [(hcloses.leaves hends.last hpasses).2, if_neg hrest]
      exact (hwell t ht scope rest s' hends hpasses hrest).symm
    · obtain ⟨mid, hcloses, hmid, hmidOk⟩ := ends_closes fn g setup hin (hn t ht) hends
      rw [(hcloses.leaves hends.last hpasses).2, if_pos rfl, (hmidOk hok).1, LoopScope.value,
        passes_of_leaves hmid hpasses]
      ring

def next (t : Tracked F E) : Option (Tracked F E) :=
  match step fn g setup t.state with
  | some (s', false) => some ⟨s', endPass t.offset (t.opened setup)⟩
  | _ => none

def nth : Nat → Tracked F E → Option (Tracked F E)
  | 0, t => some t
  | k + 1, t => (nth k t).bind (next fn g setup)

theorem exists_nth {t₀ t : Tracked F E} (h : Reaches fn g setup t₀ t) : ∃ k, nth fn g setup k t₀ = some t := by
  induction h with
  | refl => exact ⟨0, rfl⟩
  | tail _ hnext ih =>
    obtain ⟨k, hk⟩ := ih
    obtain ⟨hstep, hscopes⟩ := hnext
    refine ⟨k + 1, ?_⟩
    rw [nth, hk, Option.bind_some, next, hstep]
    exact congrArg (fun scopes => some (Tracked.mk _ scopes)) hscopes.symm

theorem nth_of_none {t₀ : Tracked F E} {n : Nat} (h : nth fn g setup n t₀ = none) {k : Nat} (hk : n ≤ k) :
    nth fn g setup k t₀ = none := by
  induction hk with
  | refl => exact h
  | step _ ih => rw [nth, ih, Option.bind_none]

theorem reaches_nth {t₀ t : Tracked F E} {k : Nat} (h : nth fn g setup k t₀ = some t) : Reaches fn g setup t₀ t := by
  induction k generalizing t with
  | zero =>
    obtain rfl := Option.some.inj h
    exact .refl
  | succ k ih =>
    obtain ⟨mid, hmid, hnext⟩ := Option.bind_eq_some_iff.mp h
    refine .tail (ih hmid) ?_
    unfold next at hnext
    split at hnext
    · obtain rfl := Option.some.inj hnext
      exact ⟨‹_›, rfl⟩
    · cases hnext

def nestedHere (t : Tracked F E) : Bool :=
  (match fetch setup t.state with
    | .loop flow => t.scopes.length < 4 && t.scopes.all fun scope => flow.destOffset ≠ scope.last
    | _ => true) && (t.scopes.isEmpty || !t.breaks setup)

omit [Field F] [LinearOrder F] in
theorem nested_of_nestedHere {t : Tracked F E} (h : t.nestedHere setup = true) : t.Nested setup := by
  unfold nestedHere at h
  refine ⟨fun flow hflow => ?_, fun flow hflow => ?_, fun hscopes => ?_⟩
  · simp only [hflow, Bool.and_eq_true, decide_eq_true_eq] at h
    exact h.1.1
  · simp only [hflow, Bool.and_eq_true, List.all_eq_true, decide_eq_true_eq] at h
    exact h.1.2
  · simp only [Bool.and_eq_true, Bool.or_eq_true, List.isEmpty_iff, Bool.not_eq_true'] at h
    exact h.2.resolve_left hscopes

end Tracked

end Runs

namespace NestedLoops

def fn : Functions ℚ := ⟨id, id, id, id, fun _ => 0⟩

def emitter : GeometryEmitter ℚ Unit := ⟨fun _ _ => none, fun e _ _ _ => e⟩

/-- A loop from 1 to 3 with another one from 2 to 2 in it.  The outer one begins with 5. -/
def setup : ShaderSetup ℚ where
  f := fun _ _ => 0
  b := fun _ => false
  i := fun id => if id = 0 then ⟨0, 5, 1, 0⟩ else ⟨0, 0, 0, 0⟩
  programCode := fun
    | 0 => .loop { destOffset := 3, intUniformId := 0 }
    | 1 => .loop { destOffset := 2, intUniformId := 1 }
    | 4 => .endProgram
    | _ => .nop
  swizzleData := fun _ => ⟨false, false, false, id, id, id, fun _ => true⟩

def unit : ShaderUnit ℚ Unit := ⟨fun _ _ => 0, fun _ _ => 0, fun _ _ => 0, fun _ => 0, fun _ => false, none⟩

private theorem nested (t : Tracked ℚ Unit) (h : Tracked.Reaches fn emitter setup (Tracked.start unit 0) t) :
    t.Nested setup := by
  obtain ⟨k, hk⟩ := Tracked.exists_nth fn emitter setup h
  have hlt : k < 5 := by
    by_contra hge
    have hnone : Tracked.nth fn emitter setup 5 (Tracked.start unit 0) = none := rfl
    rw [Tracked.nth_of_none fn emitter setup hnone (by omega)] at hk
    cases hk
  have hall : ∀ k < 5,
      ((Tracked.nth fn emitter setup k (Tracked.start unit 0)).all (Tracked.nestedHere setup)) = true := by
    decide
  have := hall k hlt
  rw [hk] at this
  exact Tracked.nested_of_nestedHere setup this

theorem nested_asStated_iff :
    (∀ t, Tracked.Reaches fn emitter setup (Tracked.start unit 0) t → t.AsStated fn emitter setup) ↔
      ∀ t, Tracked.Reaches fn emitter setup (Tracked.start unit 0) t → t.EntersWell fn emitter setup :=
  Tracked.asStated_iff fn emitter setup unit 0 nested

/-- The inner loop leaves 0 in the loop register, which was 5. -/
theorem nested_not_asStated :
    ¬ ((∀ t, Tracked.Reaches fn emitter setup (Tracked.start unit 0) t → t.Nested setup) →
      ∀ t, Tracked.Reaches fn emitter setup (Tracked.start unit 0) t → t.AsStated fn emitter setup) := by
  intro h
  obtain ⟨t, ht⟩ : ∃ t, Tracked.nth fn emitter setup 2 (Tracked.start unit 0) = some t := ⟨_, rfl⟩
  have hstated := h nested t (Tracked.reaches_nth fn emitter setup ht)
  obtain rfl := Option.some.inj ht
  have := hstated.restored _ _ _ ⟨rfl, rfl, false, rfl⟩ (by decide) (by decide)
  revert this
  decide

end NestedLoops

end SweepDSEmu.VideoCore.Interpreter
