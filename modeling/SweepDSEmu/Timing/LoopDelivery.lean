import SweepDSEmu.Timing.Clocks
import SweepDSEmu.Timing.Delivery

/-!
# Delivery in the loop of the cores

What the loop of the cores does to the timing is a run of the steps of `Config`.  Each `Advance` is taken apart into the
events that it delivers and the calls of their callbacks, and no other step touches the queues.
-/

namespace SweepDSEmu.Timing

def Cmd.FitsCores (numCores : Nat) (cmd : Cmd) : Prop := ∀ t : Timing, t.numCores = numCores → cmd.InRange t

structure TurnEnv.FitsCores (numCores : Nat) (env : TurnEnv) : Prop where
  callback : ∀ t e late, ∀ cmd ∈ env.callback t e late, cmd.FitsCores numCores
  reschedule : ∀ cmd ∈ env.reschedule, cmd.FitsCores numCores

structure Iteration.FitsCores (numCores : Nat) (env : Iteration) : Prop where
  delayed : ∀ core, (env.delayed core).FitsCores numCores
  lockStep : ∀ core, (env.lockStep core).FitsCores numCores
  run : ∀ core, ∀ acts ∈ env.run core, ∀ cmd, .call cmd ∈ acts → cmd.FitsCores numCores
  reschedule : ∀ cmd ∈ env.reschedule, cmd.FitsCores numCores

/-- Some steps lead to the timing, and the `Advance` of this core is in progress. -/
def Leads (numCores : Nat) (base : Int) (t : Timing) (core : Option Nat) : Prop :=
  t.numCores = numCores ∧ ∃ acts c, (Config.init numCores base).run acts = some c ∧ c.timing = t ∧
    c.advancing.map Prod.fst = core

namespace Leads

variable {numCores : Nat} {base : Int} {t t' : Timing} {now now' : Option Nat}

theorem act (h : Leads numCores base t now) (a : Act) (hcores : t'.numCores = t.numCores)
    (hstep : ∀ c : Config, c.timing = t → c.advancing.map Prod.fst = now →
      ∃ c', c.step a = some c' ∧ c'.timing = t' ∧ c'.advancing.map Prod.fst = now') :
    Leads numCores base t' now' := by
  have hconcat : ∀ acts (c : Config), c.run (acts ++ [a]) = (c.run acts).bind fun c => c.step a := by
    intro acts
    induction acts with
    | nil => exact fun c => Option.bind_fun_some _
    | cons a' acts ih => exact fun c => by simp only [List.cons_append, Config.run, ih, Option.bind_assoc]
  obtain ⟨hn, acts, c, hrun, ht, hnow⟩ := h
  obtain ⟨c', hs, ht', hnow'⟩ := hstep c ht hnow
  exact ⟨hcores.trans hn, acts ++ [a], c', by rw [hconcat, hrun, Option.bind_some, hs], ht', hnow'⟩

theorem exec (h : Leads numCores base t now) {cmd : Cmd} (hcmd : cmd.FitsCores numCores) :
    Leads numCores base (t.exec cmd) now :=
  h.act (.cmd cmd) (exec_callOk t cmd).numCores fun c ht hnow =>
    ⟨{ c with timing := t.exec cmd }, by simp [Config.step, ht, hcmd t h.1], rfl, hnow⟩

theorem foldl_exec {s : SystemLoop} (h : Leads numCores base s.timing now) {cmds : List Cmd}
    (hcmds : ∀ cmd ∈ cmds, cmd.FitsCores numCores) : Leads numCores base (cmds.foldl SystemLoop.exec s).timing now := by
  induction cmds generalizing s with
  | nil => exact h
  | cons cmd cmds ih =>
    rw [List.forall_mem_cons] at hcmds
    exact ih (s := s.exec cmd) (h.exec hcmds.1) hcmds.2

theorem advanceLoop {callback : Callback} (hcallback : ∀ t e late, ∀ cmd ∈ callback t e late, cmd.FitsCores numCores)
    {core fuel : Nat} {s s' : SystemLoop} (h : Leads numCores base s.timing (some core))
    (hs : s.advanceLoop callback core fuel = some s') :
    Leads numCores base s'.timing (some core) ∧ (s'.timing.timers core).popDue = none := by
  induction fuel generalizing s with
  | zero => cases hs
  | succ fuel ih =>
    unfold SystemLoop.advanceLoop at hs
    split at hs
    · rename_i e timer hpop
      refine ih (foldl_exec (s := s.setTiming (s.timing.setTimer core timer)) ?_ (hcallback _ _ _)) hs
      refine h.act .deliver rfl fun c ht hnow => ?_
      obtain ⟨⟨core', events⟩, hadv, rfl⟩ := Option.map_eq_some_iff.mp hnow
      exact ⟨⟨s.timing.setTimer core' timer, e :: c.delivered, some (core', e :: events)⟩,
        by simp [Config.step, hadv, ht, hpop], rfl, rfl⟩
    · rename_i hpop
      cases hs
      exact ⟨h, hpop⟩

theorem advance {callback : Callback} (hcallback : ∀ t e late, ∀ cmd ∈ callback t e late, cmd.FitsCores numCores)
    {core fuel : Nat} {s s' : SystemLoop} (h : Leads numCores base s.timing none)
    (hs : s.advance callback core fuel = some s') : Leads numCores base s'.timing none := by
  obtain ⟨s₁, hloop, rfl⟩ := Option.map_eq_some_iff.mp hs
  have hbegin : Leads numCores base (s.modifyTimer core Timer.beginAdvance).timing (some core) := by
    refine h.act (.beginAdvance core) rfl fun c ht hnow => ?_
    rw [Option.map_eq_none_iff] at hnow
    exact ⟨{ c with timing := _, advancing := some (core, []) }, by simp [Config.step, hnow, ht]; rfl, rfl, rfl⟩
  obtain ⟨h₁, hpop⟩ := hbegin.advanceLoop hcallback hloop
  refine h₁.act .endAdvance rfl fun c ht hnow => ?_
  obtain ⟨⟨core', events⟩, hadv, rfl⟩ := Option.map_eq_some_iff.mp hnow
  exact ⟨{ c with timing := _, advancing := none }, by simp [Config.step, hadv, ht, hpop]; rfl, rfl, rfl⟩

theorem setCurrentTimer (h : Leads numCores base t now) (core : Nat) :
    Leads numCores base (t.setCurrentTimer core) now :=
  h.act (.setCurrentTimer core) rfl fun c ht hnow => ⟨_, rfl, by rw [ht], hnow⟩

theorem setNextSlice (h : Leads numCores base t now) (core : Nat) (maxSlice : Int) :
    Leads numCores base (t.setTimer core ((t.timers core).setNextSlice maxSlice)) now :=
  h.act (.setNextSlice core maxSlice) rfl fun c ht hnow => ⟨_, rfl, by rw [ht], hnow⟩

theorem turn {s : SystemLoop} (h : Leads numCores base s.timing none) (core : Nat) {env : TurnEnv}
    (henv : env.FitsCores numCores) : Returns (fun s' => Leads numCores base s'.timing none) (s.turn core env) := by
  unfold SystemLoop.turn
  split
  · trivial
  · rename_i hs
    exact foldl_exec (advance henv.callback (h.setCurrentTimer core) hs) henv.reschedule

theorem execute {s : SystemLoop} (h : Leads numCores base s.timing none) {env : Iteration}
    (henv : env.FitsCores numCores) (core : Nat) (lockStep : Option (Timing × Bool)) :
    Leads numCores base (s.execute core lockStep (env.run core)).timing none := by
  have hacts : ∀ (acts : List RunAct), (∀ cmd, .call cmd ∈ acts → cmd.FitsCores numCores) → ∀ s : SystemLoop,
      Leads numCores base s.timing none → Leads numCores base (acts.foldl (SystemLoop.act core) s).timing none := by
    intro acts hfits
    induction acts with
    | nil => exact fun s h => h
    | cons act acts ih =>
      intro s h
      refine ih (fun cmd hcmd => hfits cmd (List.mem_cons_of_mem _ hcmd)) _ ?_
      cases act with
      | addTicks ticks => exact h.act (.addTicks core ticks) rfl fun c ht hnow => ⟨_, rfl, by rw [ht]; rfl, hnow⟩
      | call cmd => exact h.exec (hfits cmd List.mem_cons_self)
  cases hrun : env.run core with
  | none =>
    exact (h.setCurrentTimer core).act (.idle core) rfl fun c ht hnow => ⟨_, rfl, by rw [ht]; rfl, hnow⟩
  | some acts => exact hacts acts (henv.run core acts hrun) _ (h.setCurrentTimer core)

theorem delayTurn {d : SystemLoop.Delays} (h : Leads numCores base d.system.timing none) {env : Iteration}
    (henv : env.FitsCores numCores) (globalTicks : Int) (core : Nat) :
    Returns (fun d' => Leads numCores base d'.system.timing none) (SystemLoop.delayTurn globalTicks env d core) := by
  unfold SystemLoop.delayTurn
  split
  · have hturn := h.turn core (henv.delayed core)
    split
    · trivial
    · rename_i hs
      rw [hs] at hturn
      exact Outcome.ite (fun _ => hturn.setNextSlice core _) fun _ => hturn.setNextSlice core _
  · exact h

theorem sliceTurn {p : SystemLoop × Int} (h : Leads numCores base p.1.timing none) {env : Iteration}
    (henv : env.FitsCores numCores) (core : Nat) :
    Returns (fun p' => Leads numCores base p'.1.timing none) (SystemLoop.sliceTurn env p core) := by
  have hturn := h.turn core (henv.lockStep core)
  unfold SystemLoop.sliceTurn
  split
  · trivial
  · rename_i hs
    rw [hs] at hturn
    split
    · trivial
    · exact hturn

theorem runLoop {s : SystemLoop} (h : Leads numCores base s.timing none) {env : Iteration}
    (henv : env.FitsCores numCores) : Returns (fun s' => Leads numCores base s'.timing none) (s.runLoop env) := by
  refine Outcome.bind (Outcome.foldlM (P := fun d => Leads numCores base d.system.timing none) h
    fun d core _ hd => hd.delayTurn henv _ core) fun d hd => ?_
  refine Outcome.ite (fun _ => foldl_exec (hd.execute henv _ _) henv.reschedule) fun _ => ?_
  refine Outcome.bind (Outcome.foldlM (P := fun p => Leads numCores base p.1.timing none) hd
    fun p core _ hp => hp.sliceTurn henv core) fun p hp => ?_
  refine foldl_exec ?_ henv.reschedule
  have hlock : ∀ (cores : List Nat) (l : SystemLoop.LockStep), Leads numCores base l.system.timing none →
      Leads numCores base (cores.foldl (SystemLoop.lockStepTurn p.1.timing env) l).system.timing none := by
    intro cores
    induction cores with
    | nil => exact fun l hl => hl
    | cons core cores ih => exact fun l hl => ih _ ((hl.setNextSlice core l.maxSlice).execute henv core _)
  exact hlock _ _ hp

end Leads

/-- The cores schedule events on the second one. -/
def crossCoreIteration : Iteration :=
  SystemLoop.quietIteration fun _ => some [.call (.schedule 5 0 0 (some 1) false), .addTicks 3]

end SweepDSEmu.Timing
