import SweepDSEmu.Timing.RunLoop
import SweepDSEmu.Lib.Outcome

/-!
# The clocks of the cores

The clock of a core is its base and all ticks that it has been given or has idled: `Advance` moves the executed part of
a slice to `executedTicks`, and a new slice begins only after that.

A slice ends before the first event in the queue of its core.  In a lock-step phase a slice is not longer than the one
before as long as no core overshoots, so that it also ends before the first event of every other core.

`SetNextSlice` converts the length of a slice to an `int`.  A slice of `2 ^ 31` ticks becomes negative, and a core that
idles on it goes back in time: `Clean` excludes it.
-/

namespace SweepDSEmu.Timing

structure Timer.Quiet (t t' : Timer) : Prop where
  sane : t'.isTimerSane = t.isTimerSane
  executedTicks : t'.executedTicks = t.executedTicks
  sliceLength : t'.sliceLength = t.sliceLength
  downcount : t'.downcount = t.downcount
  queue : ∀ e ∈ t'.eventQueue, e ∈ t.eventQueue

theorem Timer.Quiet.refl (t : Timer) : Timer.Quiet t t := ⟨rfl, rfl, rfl, rfl, fun _ => id⟩

theorem Timer.Quiet.trans {t t' t'' : Timer} (h : Timer.Quiet t t') (h' : Timer.Quiet t' t'') : Timer.Quiet t t'' where
  sane := h'.sane.trans h.sane
  executedTicks := h'.executedTicks.trans h.executedTicks
  sliceLength := h'.sliceLength.trans h.sliceLength
  downcount := h'.downcount.trans h.downcount
  queue := fun e he => h.queue e (h'.queue e he)

structure Timer.Keeps (t t' : Timer) : Prop where
  sane : t'.isTimerSane = t.isTimerSane
  executedTicks : t'.executedTicks = t.executedTicks
  elapsed : t'.sliceLength - t'.downcount = t.sliceLength - t.downcount
  sorted : t.eventQueue.Pairwise Event.le → t'.eventQueue.Pairwise Event.le

theorem Timer.Keeps.getTicks {t t' : Timer} (h : Timer.Keeps t t') : t'.getTicks = t.getTicks := by
  unfold Timer.getTicks
  rw [h.sane, h.executedTicks, h.elapsed]

structure Timer.Ahead (t : Timer) : Prop where
  notSane : t.isTimerSane = false
  settled : t.sliceLength = t.downcount
  queue : ∀ e ∈ t.eventQueue, t.executedTicks < e.time

theorem Timer.Ahead.quiet {t t' : Timer} (h : t.Ahead) (hq : Timer.Quiet t t') : t'.Ahead where
  notSane := hq.sane.trans h.notSane
  settled := hq.sliceLength.trans (h.settled.trans hq.downcount.symm)
  queue := fun e he => by
    rw [hq.executedTicks]
    exact h.queue e (hq.queue e he)

theorem Timer.Ahead.getTicks {t : Timer} (h : t.Ahead) : t.getTicks = t.executedTicks := by
  unfold Timer.getTicks
  rw [h.settled]
  simp

private theorem forceExceptionCheck_elapsed (t : Timer) (cycles : Int) :
    (t.forceExceptionCheck cycles).isTimerSane = t.isTimerSane ∧
      (t.forceExceptionCheck cycles).executedTicks = t.executedTicks ∧
      (t.forceExceptionCheck cycles).eventQueue = t.eventQueue ∧
      (t.forceExceptionCheck cycles).sliceLength - (t.forceExceptionCheck cycles).downcount =
        t.sliceLength - t.downcount := by
  unfold Timer.forceExceptionCheck
  dsimp only
  split
  · refine ⟨rfl, rfl, rfl, ?_⟩
    dsimp only
    omega
  · exact ⟨rfl, rfl, rfl, rfl⟩

section Exec

variable (t : Timing)

private theorem timers_setTimer (core k : Nat) (timer : Timer) :
    (t.setTimer core timer).timers k = if k = core then timer else t.timers k := by
  by_cases h : k = core
  · rw [if_pos h, h, setTimer_self]
  · rw [if_neg h, setTimer_of_ne t timer h]

private theorem pushTs_quiet (core k : Nat) (time : Int) (userData type : Nat) :
    Timer.Quiet (t.timers k) ((t.pushTs core time userData type).timers k) := by
  show Timer.Quiet (t.timers k) ((t.setTimer core _).timers k)
  rw [timers_setTimer]
  split
  · rename_i h
    rw [h]
    exact ⟨rfl, rfl, rfl, rfl, fun _ => id⟩
  · exact Timer.Quiet.refl _

private theorem pushTs_queue (core k : Nat) (time : Int) (userData type : Nat) :
    ((t.pushTs core time userData type).timers k).eventQueue = (t.timers k).eventQueue := by
  show ((t.setTimer core _).timers k).eventQueue = _
  rw [timers_setTimer]
  split
  · rename_i h
    rw [h]
  · rfl

private theorem Quiet.keeps {t t' : Timer} (h : Timer.Quiet t t')
    (hsorted : t.eventQueue.Pairwise Event.le → t'.eventQueue.Pairwise Event.le) : Timer.Keeps t t' where
  sane := h.sane
  executedTicks := h.executedTicks
  elapsed := by rw [h.sliceLength, h.downcount]
  sorted := hsorted

structure CallOk (t t' : Timing) (cmd : Cmd) : Prop where
  numCores : t'.numCores = t.numCores
  currentTimer : t'.currentTimer = t.currentTimer
  keeps : ∀ k, Timer.Keeps (t.timers k) (t'.timers k)
  quiet : ∀ k, k ≠ t.currentTimer → Timer.Quiet (t.timers k) (t'.timers k)
  queue : ∀ k, ∀ e ∈ (t'.timers k).eventQueue, e ∈ (t.timers k).eventQueue ∨
    ∃ cycles type userData coreId threadSafeMode, cmd = .schedule cycles type userData coreId threadSafeMode ∧
      e.time = (t.timers k).getTicks + cycles

private theorem eraseEvents_callOk (p : Event → Bool) (cmd : Cmd) : CallOk t (t.eraseEvents p) cmd := by
  unfold eraseEvents
  split
  · exact ⟨rfl, rfl, fun k => Quiet.keeps (Timer.Quiet.refl _) id, fun k _ => Timer.Quiet.refl _, fun k e he => Or.inl he⟩
  · have hquiet : ∀ k, Timer.Quiet (t.timers k)
        { t.timers k with eventQueue := (t.timers k).eventQueue.filter fun e => !p e } := fun k =>
      ⟨rfl, rfl, rfl, rfl, fun e he => List.mem_of_mem_filter he⟩
    exact ⟨rfl, rfl, fun k => Quiet.keeps (hquiet k) fun hs => hs.filter _, fun k _ => hquiet k,
      fun k e he => Or.inl (List.mem_of_mem_filter he)⟩

private theorem scheduleEvent_callOk (cycles : Int) (type userData : Nat) (coreId : Option Nat)
    (threadSafeMode : Bool) :
    CallOk t (t.scheduleEvent cycles type userData coreId threadSafeMode)
      (.schedule cycles type userData coreId threadSafeMode) := by
  have hts : ∀ core time, CallOk t (t.pushTs core time userData type)
      (.schedule cycles type userData coreId threadSafeMode) := by
    intro core time
    refine ⟨rfl, rfl, fun k => ?_, fun k _ => pushTs_quiet t core k time userData type, fun k e he => ?_⟩
    · refine Quiet.keeps (pushTs_quiet t core k time userData type) fun hs => ?_
      rw [pushTs_queue]
      exact hs
    · rw [pushTs_queue] at he
      exact Or.inl he
  unfold scheduleEvent
  split
  · exact ⟨rfl, rfl, fun k => Quiet.keeps (Timer.Quiet.refl _) id, fun k _ => Timer.Quiet.refl _, fun k e he => Or.inl he⟩
  · dsimp only
    split
    · exact hts _ _
    · split
      · rename_i hcore
        generalize coreId.getD t.currentTimer = core at hcore
        -- the slice of the current timer can be shortened
        obtain ⟨timer, htimer⟩ : ∃ timer, timer = (if (t.timers core).isTimerSane then t.timers core
          else (t.timers core).forceExceptionCheck cycles) := ⟨_, rfl⟩
        have hshort : timer.isTimerSane = (t.timers core).isTimerSane ∧
            timer.executedTicks = (t.timers core).executedTicks ∧ timer.eventQueue = (t.timers core).eventQueue ∧
            timer.sliceLength - timer.downcount = (t.timers core).sliceLength - (t.timers core).downcount := by
          rw [htimer]
          split
          · exact ⟨rfl, rfl, rfl, rfl⟩
          · exact forceExceptionCheck_elapsed _ cycles
        obtain ⟨hsane, hexecuted, hqueue, helapsed⟩ := hshort
        rw [← htimer]
        refine ⟨rfl, rfl, ?_, ?_, ?_⟩
        · intro k
          show Timer.Keeps (t.timers k) ((t.setTimer core _).timers k)
          rw [timers_setTimer]
          split
          · rename_i hk
            rw [hk]
            refine ⟨hsane, hexecuted, helapsed, fun hs => pushHeap_sorted ?_ _⟩
            rw [hqueue]
            exact hs
          · exact Quiet.keeps (Timer.Quiet.refl _) id
        · intro k hk
          show Timer.Quiet (t.timers k) ((t.setTimer core _).timers k)
          rw [timers_setTimer, if_neg fun hc => hk (hc.trans hcore.symm)]
          exact Timer.Quiet.refl _
        · intro k e he
          replace he : e ∈ ((t.setTimer core _).timers k).eventQueue := he
          rw [timers_setTimer] at he
          split at he
          · rename_i hk
            rw [hk]
            rcases mem_pushHeap.mp he with rfl | he
            · exact Or.inr ⟨cycles, type, userData, coreId, threadSafeMode, rfl, rfl⟩
            · rw [hqueue] at he
              exact Or.inl he
          · exact Or.inl he
      · exact hts _ _

theorem exec_callOk (cmd : Cmd) : CallOk t (t.exec cmd) cmd := by
  cases cmd with
  | schedule cycles type userData coreId threadSafeMode =>
    exact scheduleEvent_callOk t cycles type userData coreId threadSafeMode
  | unschedule type userData => exact eraseEvents_callOk t _ _
  | remove type => exact eraseEvents_callOk t _ _

end Exec

def Cmd.Later : Cmd → Prop
  | .schedule cycles _ _ _ _ => 0 < cycles
  | _ => True

/-- The calls of `Reschedule` are for the future. -/
structure Iteration.Later (env : Iteration) : Prop where
  delayed : ∀ core, ∀ cmd ∈ (env.delayed core).reschedule, cmd.Later
  lockStep : ∀ core, ∀ cmd ∈ (env.lockStep core).reschedule, cmd.Later

theorem Timer.Ahead.call {t t' : Timing} {cmd : Cmd} {k : Nat} (h : (t.timers k).Ahead) (hcall : CallOk t t' cmd)
    (hcmd : cmd.Later) : (t'.timers k).Ahead := by
  have hkeeps := hcall.keeps k
  constructor
  · exact hkeeps.sane.trans h.notSane
  · have helapsed := hkeeps.elapsed
    have hsettled := h.settled
    omega
  · intro e he
    rw [hkeeps.executedTicks]
    rcases hcall.queue k e he with hold | ⟨cycles, type, userData, coreId, threadSafeMode, rfl, htime⟩
    · exact h.queue e hold
    · have hcycles : 0 < cycles := hcmd
      rw [htime, h.getTicks]
      omega

def totalTicks : List RunAct → Int
  | [] => 0
  | .addTicks ticks :: acts => ticks + totalTicks acts
  | .call _ :: acts => totalTicks acts

theorem totalTicks_nonneg (acts : List RunAct) : 0 ≤ totalTicks acts := by
  induction acts with
  | nil => exact le_refl 0
  | cons act acts ih =>
    cases act with
    | addTicks ticks =>
      unfold totalTicks
      omega
    | call cmd => exact ih

/-- No thread runs for too long. -/
def Iteration.Short (env : Iteration) (numCores : Nat) : Prop :=
  ∀ core < numCores, ∀ acts, env.run core = some acts → totalTicks acts < 2 ^ 31

def Point.ticks (p : Point) (core : Nat) : Int := (p.timing.timers core).getTicks

/-- The slice of a core that is started ends before the first event of its queue.  In a lock-step phase it also ends
before the events that the other cores had, if no core has overshot its slice. -/
structure Start.Ok (numCores : Nat) (st : Start) : Prop where
  own : ∀ e ∈ st.timer.eventQueue, st.timer.downcount ≤ e.time - st.timer.getTicks
  lockStep : ∀ moment, st.lockStep = some (moment, false) → ∀ core < numCores,
    ∀ e ∈ (moment.timers core).eventQueue, st.timer.downcount ≤ e.time - (moment.timers core).getTicks

namespace SystemLoop

structure Clocked (base : Int) (numCores : Nat) (s : SystemLoop) : Prop where
  cores : s.timing.numCores = numCores
  clock : ∀ core, s.ticks core = base + s.added core + s.idled core
  sane : ∀ core, (s.timing.timers core).isTimerSane = true →
    (s.timing.timers core).sliceLength = (s.timing.timers core).downcount
  sorted : ∀ core, (s.timing.timers core).eventQueue.Pairwise Event.le
  points : ∀ p ∈ s.points, ∀ core, p.ticks core = base + p.added core + p.idled core ∧ p.ticks core ≤ s.ticks core
  monotone : s.points.Pairwise fun later earlier => ∀ core, earlier.ticks core ≤ later.ticks core
  starts : ∀ st ∈ s.starts, st.Ok numCores

section Steps

variable {base : Int} {numCores : Nat} {s s' : SystemLoop} {core : Nat}

theorem Clocked.advanceTo (h : Clocked base numCores s) {p : Point} (hcores : p.timing.numCores = numCores)
    (hclock : ∀ core, p.ticks core = base + p.added core + p.idled core)
    (hle : ∀ core, s.ticks core ≤ p.ticks core)
    (hsane : ∀ core, (p.timing.timers core).isTimerSane = true →
      (p.timing.timers core).sliceLength = (p.timing.timers core).downcount)
    (hsorted : ∀ core, (p.timing.timers core).eventQueue.Pairwise Event.le) :
    Clocked base numCores (s.advanceTo p) where
  cores := hcores
  clock := hclock
  sane := hsane
  sorted := hsorted
  points := by
    intro q hq core
    rcases List.mem_cons.mp hq with rfl | hq
    · exact ⟨hclock core, le_refl _⟩
    · obtain ⟨heq, hle'⟩ := h.points q hq core
      exact ⟨heq, hle'.trans (hle core)⟩
  monotone := by
    refine List.pairwise_cons.mpr ⟨?_, h.monotone⟩
    intro q hq core
    exact ((h.points q hq core).2).trans (hle core)
  starts := h.starts

theorem Clocked.setTiming (h : Clocked base numCores s) {t : Timing} (hcores : t.numCores = numCores)
    (hticks : ∀ core, (t.timers core).getTicks = s.ticks core)
    (hsane : ∀ core, (t.timers core).isTimerSane = true → (t.timers core).sliceLength = (t.timers core).downcount)
    (hsorted : ∀ core, (t.timers core).eventQueue.Pairwise Event.le) : Clocked base numCores (s.setTiming t) := by
  refine h.advanceTo hcores ?_ ?_ hsane hsorted
  · intro core
    exact (hticks core).trans (h.clock core)
  · intro core
    exact le_of_eq (hticks core).symm

/-- What the steps of one core do to the others, and to the account. -/
structure Frame (core : Nat) (s s' : SystemLoop) : Prop where
  quiet : ∀ k, k ≠ core → Timer.Quiet (s.timing.timers k) (s'.timing.timers k)
  added : s'.added = s.added
  idled : s'.idled = s.idled

theorem Frame.refl (core : Nat) (s : SystemLoop) : Frame core s s := ⟨fun _ _ => Timer.Quiet.refl _, rfl, rfl⟩

theorem Frame.trans {s'' : SystemLoop} (h : Frame core s s') (h' : Frame core s' s'') : Frame core s s'' where
  quiet := fun k hk => (h.quiet k hk).trans (h'.quiet k hk)
  added := h'.added.trans h.added
  idled := h'.idled.trans h.idled

theorem Clocked.exec (h : Clocked base numCores s) (cmd : Cmd) : Clocked base numCores (s.exec cmd) := by
  have hcall := exec_callOk s.timing cmd
  refine h.setTiming (hcall.numCores.trans h.cores) ?_ ?_ ?_
  · exact fun core => (hcall.keeps core).getTicks
  · intro core hsane
    have hkeeps := hcall.keeps core
    rw [hkeeps.sane] at hsane
    have hsettled := h.sane core hsane
    have helapsed := hkeeps.elapsed
    omega
  · exact fun core => (hcall.keeps core).sorted (h.sorted core)

structure Calls (core : Nat) (cmds : List Cmd) (s s' : SystemLoop) : Prop where
  frame : Frame core s s'
  currentTimer : s'.timing.currentTimer = core
  keeps : Timer.Keeps (s.timing.timers core) (s'.timing.timers core)
  ahead : (∀ cmd ∈ cmds, cmd.Later) → (s.timing.timers core).Ahead → (s'.timing.timers core).Ahead

theorem Clocked.foldl_exec (h : Clocked base numCores s) (hcur : s.timing.currentTimer = core) (cmds : List Cmd) :
    Clocked base numCores (cmds.foldl SystemLoop.exec s) ∧ Calls core cmds s (cmds.foldl SystemLoop.exec s) := by
  induction cmds generalizing s with
  | nil => exact ⟨h, Frame.refl core s, hcur, ⟨rfl, rfl, rfl, id⟩, fun _ => id⟩
  | cons cmd cmds ih =>
    have hcall := exec_callOk s.timing cmd
    obtain ⟨hclocked, hcalls⟩ := ih (h.exec cmd) (hcall.currentTimer.trans hcur)
    refine ⟨hclocked, ?_⟩
    have hkeeps := hcall.keeps core
    constructor
    · have hfirst : Frame core s (s.exec cmd) := ⟨fun k hk => hcall.quiet k (by rwa [hcur]), rfl, rfl⟩
      exact hfirst.trans hcalls.frame
    · exact hcalls.currentTimer
    · exact ⟨hcalls.keeps.sane.trans hkeeps.sane, hcalls.keeps.executedTicks.trans hkeeps.executedTicks,
        hcalls.keeps.elapsed.trans hkeeps.elapsed, fun hs => hcalls.keeps.sorted (hkeeps.sorted hs)⟩
    · intro hlater hahead
      refine hcalls.ahead (fun c hc => hlater c (List.mem_cons_of_mem cmd hc)) ?_
      exact hahead.call hcall (hlater cmd (List.mem_cons_self ..))

theorem Clocked.modifyTimer (h : Clocked base numCores s) {f : Timer → Timer}
    (hticks : (f (s.timing.timers core)).getTicks = (s.timing.timers core).getTicks)
    (hsane : (f (s.timing.timers core)).isTimerSane = true →
      (f (s.timing.timers core)).sliceLength = (f (s.timing.timers core)).downcount)
    (hsorted : (f (s.timing.timers core)).eventQueue.Pairwise Event.le) :
    Clocked base numCores (s.modifyTimer core f) := by
  refine h.setTiming h.cores ?_ ?_ ?_
  · intro k
    rw [timers_setTimer]
    split
    · rename_i hk
      rw [hticks, hk]
      rfl
    · rfl
  · intro k
    rw [timers_setTimer]
    split
    · exact hsane
    · exact h.sane k
  · intro k
    rw [timers_setTimer]
    split
    · exact hsorted
    · exact h.sorted k

theorem frame_modifyTimer (s : SystemLoop) (core : Nat) (f : Timer → Timer) : Frame core s (s.modifyTimer core f) where
  quiet := by
    intro k hk
    show Timer.Quiet _ ((s.timing.setTimer core _).timers k)
    rw [setTimer_of_ne _ _ hk]
    exact Timer.Quiet.refl _
  added := rfl
  idled := rfl

theorem timers_modifyTimer (s : SystemLoop) (core : Nat) (f : Timer → Timer) :
    (s.modifyTimer core f).timing.timers core = f (s.timing.timers core) := setTimer_self ..

private theorem foldl_moveEvent (l : List Event) (t : Timer) :
    (l.foldl Timer.moveEvent t).executedTicks = t.executedTicks ∧
      (l.foldl Timer.moveEvent t).sliceLength = t.sliceLength ∧
      (l.foldl Timer.moveEvent t).downcount = t.downcount ∧
      (t.eventQueue.Pairwise Event.le → (l.foldl Timer.moveEvent t).eventQueue.Pairwise Event.le) := by
  induction l generalizing t with
  | nil => exact ⟨rfl, rfl, rfl, id⟩
  | cons e l ih =>
    obtain ⟨hexecuted, hslice, hdowncount, hsorted⟩ := ih (t.moveEvent e)
    exact ⟨hexecuted, hslice, hdowncount, fun hs => hsorted (pushHeap_sorted hs _)⟩

private theorem beginAdvance_spec (t : Timer) :
    t.beginAdvance.isTimerSane = true ∧ t.beginAdvance.sliceLength = 0 ∧ t.beginAdvance.downcount = 0 ∧
      t.beginAdvance.executedTicks = t.executedTicks + (t.sliceLength - t.downcount) ∧
      (t.eventQueue.Pairwise Event.le → t.beginAdvance.eventQueue.Pairwise Event.le) := by
  obtain ⟨hexecuted, hslice, hdowncount, hsorted⟩ := foldl_moveEvent t.tsQueue t
  refine ⟨rfl, rfl, rfl, ?_, hsorted⟩
  show (t.tsQueue.foldl Timer.moveEvent t).executedTicks + ((t.tsQueue.foldl Timer.moveEvent t).sliceLength -
    (t.tsQueue.foldl Timer.moveEvent t).downcount) = _
  rw [hexecuted, hslice, hdowncount]

theorem Clocked.beginAdvance (h : Clocked base numCores s) (core : Nat) :
    Clocked base numCores (s.modifyTimer core Timer.beginAdvance) := by
  obtain ⟨hsane, hslice, hdowncount, hexecuted, hsorted⟩ := beginAdvance_spec (s.timing.timers core)
  refine h.modifyTimer ?_ ?_ ?_
  · have hsettled := h.sane core
    unfold Timer.getTicks
    rw [hsane, hexecuted, if_pos rfl]
    split
    · rename_i hs
      have heq := hsettled hs
      omega
    · omega
  · intro _
    rw [hslice, hdowncount]
  · exact hsorted (h.sorted core)

structure Delivering (core : Nat) (s₀ s : SystemLoop) : Prop where
  frame : Frame core s₀ s
  currentTimer : s.timing.currentTimer = core
  sane : (s.timing.timers core).isTimerSane = true
  settled : (s.timing.timers core).sliceLength = (s.timing.timers core).downcount

theorem Clocked.advanceLoop (callback : Callback) (core fuel : Nat) (s₀ s s' : SystemLoop)
    (h : Clocked base numCores s) (hd : Delivering core s₀ s)
    (hs' : SystemLoop.advanceLoop callback core fuel s = some s') :
    Clocked base numCores s' ∧ Delivering core s₀ s' ∧ (s'.timing.timers core).popDue = none := by
  induction fuel generalizing s with
  | zero => cases hs'
  | succ fuel ih =>
    unfold SystemLoop.advanceLoop at hs'
    split at hs'
    · rename_i e timer hpop
      obtain ⟨-, rest, hqueue, htimer⟩ := Timer.popDue_some hpop
      -- the event is popped, and then its callback makes its calls
      obtain ⟨s₁, hs₁⟩ : ∃ s₁, s₁ = s.modifyTimer core fun _ => timer := ⟨_, rfl⟩
      have hsorted := h.sorted core
      rw [hqueue] at hsorted
      have h₁ : Clocked base numCores s₁ := by
        rw [hs₁]
        refine h.modifyTimer ?_ ?_ ?_
        · rw [htimer]
          rfl
        · rw [htimer]
          exact fun _ => hd.settled
        · rw [htimer]
          exact (List.pairwise_cons.mp hsorted).2
      have htimers₁ : s₁.timing.timers core = timer := by
        rw [hs₁]
        exact timers_modifyTimer s core _
      have hframe₁ : Frame core s₀ s₁ := by
        rw [hs₁]
        exact hd.frame.trans (frame_modifyTimer s core _)
      have hcur₁ : s₁.timing.currentTimer = core := by
        rw [hs₁]
        exact hd.currentTimer
      rw [show s.setTiming (s.timing.setTimer core timer) = s₁ from hs₁.symm] at hs'
      obtain ⟨h₂, hcalls⟩ := h₁.foldl_exec hcur₁ (callback s₁.timing e (timer.cyclesLate e))
      refine ih _ h₂ ⟨hframe₁.trans hcalls.frame, hcalls.currentTimer, ?_, ?_⟩ hs'
      · rw [hcalls.keeps.sane, htimers₁, htimer]
        exact hd.sane
      · have helapsed := hcalls.keeps.elapsed
        have hsettled : timer.sliceLength = timer.downcount := by
          rw [htimer]
          exact hd.settled
        rw [htimers₁] at helapsed
        omega
    · rename_i hpop
      cases hs'
      exact ⟨h, hd, hpop⟩

theorem Clocked.advance (h : Clocked base numCores s) (hcur : s.timing.currentTimer = core) {callback : Callback}
    {fuel : Nat} (hs' : s.advance callback core fuel = some s') :
    Clocked base numCores s' ∧ Frame core s s' ∧ s'.timing.currentTimer = core ∧ (s'.timing.timers core).Ahead := by
  obtain ⟨s₁, hloop, rfl⟩ := Option.map_eq_some_iff.mp hs'
  obtain ⟨hsane, hslice, hdowncount, -, -⟩ := beginAdvance_spec (s.timing.timers core)
  have hbegin := timers_modifyTimer s core Timer.beginAdvance
  obtain ⟨h₁, hd, hpop⟩ := Clocked.advanceLoop callback core fuel s _ s₁ (h.beginAdvance core) (by
    refine ⟨frame_modifyTimer s core _, hcur, ?_, ?_⟩
    · rw [hbegin]
      exact hsane
    · rw [hbegin, hslice, hdowncount]) hloop
  have hfuture := Timer.popDue_none (h₁.sorted core) hpop
  refine ⟨?_, hd.frame.trans (frame_modifyTimer s₁ core _), hd.currentTimer, ?_⟩
  · refine h₁.modifyTimer ?_ (fun hc => by cases hc) (h₁.sorted core)
    have hsettled := hd.settled
    unfold Timer.getTicks
    simp [hsettled]
  · rw [timers_modifyTimer]
    exact ⟨rfl, hd.settled, hfuture⟩

theorem Clocked.turn (h : Clocked base numCores s) (core : Nat) {env : TurnEnv}
    (hlater : ∀ cmd ∈ env.reschedule, cmd.Later) :
    s.turn core env = .error .advanceDoesNotEnd ∨
      ∃ s', s.turn core env = .ok s' ∧ Clocked base numCores s' ∧ Frame core s s' ∧
        (s'.timing.timers core).Ahead := by
  have h₀ : Clocked base numCores (s.setTiming (s.timing.setCurrentTimer core)) :=
    h.setTiming h.cores (fun _ => rfl) h.sane h.sorted
  unfold SystemLoop.turn
  cases hadvance : (s.setTiming (s.timing.setCurrentTimer core)).advance env.callback core env.fuel with
  | none => exact Or.inl rfl
  | some s₁ =>
    right
    obtain ⟨h₁, hframe, hcur, hahead⟩ := h₀.advance rfl hadvance
    obtain ⟨h₂, hcalls⟩ := h₁.foldl_exec hcur env.reschedule
    refine ⟨_, rfl, h₂, ?_, hcalls.ahead hlater hahead⟩
    have hset : Frame core s (s.setTiming (s.timing.setCurrentTimer core)) :=
      ⟨fun _ _ => Timer.Quiet.refl _, rfl, rfl⟩
    exact (hset.trans hframe).trans hcalls.frame

structure Sliced (t : Timer) (maxSlice : Int) : Prop where
  notSane : t.isTimerSane = false
  settled : t.sliceLength = t.downcount
  nonneg : 0 ≤ t.downcount
  le : t.downcount ≤ maxSlice
  queue : ∀ e ∈ t.eventQueue, t.downcount ≤ e.time - t.executedTicks

variable {maxSlice : Int} {env : Iteration} {rest : List Nat}

theorem Sliced.quiet {t t' : Timer} (h : Sliced t maxSlice) (hq : Timer.Quiet t t') : Sliced t' maxSlice where
  notSane := hq.sane.trans h.notSane
  settled := hq.sliceLength.trans (h.settled.trans hq.downcount.symm)
  nonneg := by
    rw [hq.downcount]
    exact h.nonneg
  le := by
    rw [hq.downcount]
    exact h.le
  queue := by
    intro e he
    rw [hq.downcount, hq.executedTicks]
    exact h.queue e (hq.queue e he)

theorem Sliced.getTicks {t : Timer} (h : Sliced t maxSlice) : t.getTicks = t.executedTicks := by
  unfold Timer.getTicks
  rw [h.settled]
  simp

theorem sliced_setNextSlice {t : Timer} (h : t.Ahead) (hsorted : t.eventQueue.Pairwise Event.le)
    (hnonneg : 0 ≤ maxSlice) (hsmall : maxSlice < 2 ^ 31) : Sliced (t.setNextSlice maxSlice) maxSlice := by
  unfold Timer.setNextSlice
  cases hqueue : t.eventQueue with
  | nil =>
    refine ⟨h.notSane, rfl, hnonneg, le_refl _, ?_⟩
    intro e he
    cases he
  | cons e₀ rest =>
    have hfirst : t.executedTicks < e₀.time := h.queue e₀ (by rw [hqueue]; exact List.mem_cons_self ..)
    have hslice : toInt32 (min (e₀.time - t.executedTicks) maxSlice) = min (e₀.time - t.executedTicks) maxSlice :=
      toInt32_of_small (by omega) (by omega)
    dsimp only
    refine ⟨h.notSane, rfl, ?_, ?_, ?_⟩
    · dsimp only
      omega
    · dsimp only
      omega
    · intro e he
      dsimp only at he ⊢
      rw [hqueue] at hsorted
      rcases List.mem_cons.mp he with rfl | he
      · omega
      · have hle := (List.pairwise_cons.mp hsorted).1 e he
        unfold Event.le at hle
        omega

theorem Clocked.setNextSlice (h : Clocked base numCores s) (hahead : (s.timing.timers core).Ahead)
    (hnonneg : 0 ≤ maxSlice) (hsmall : maxSlice < 2 ^ 31) :
    Clocked base numCores (s.modifyTimer core fun t => t.setNextSlice maxSlice) ∧
      Sliced ((s.modifyTimer core fun t => t.setNextSlice maxSlice).timing.timers core) maxSlice := by
  have hsliced := sliced_setNextSlice hahead (h.sorted core) hnonneg hsmall
  constructor
  · refine h.modifyTimer ?_ ?_ (h.sorted core)
    · rw [hsliced.getTicks, hahead.getTicks]
      rfl
    · intro hsane
      rw [hsliced.notSane] at hsane
      cases hsane
  · rw [timers_modifyTimer]
    exact hsliced

private theorem ticks_setTimer {timer : Timer} (s : SystemLoop) (core k : Nat) :
    ((s.timing.setTimer core timer).timers k).getTicks = if k = core then timer.getTicks else s.ticks k := by
  rw [timers_setTimer]
  split <;> rfl

private theorem Clocked.goOn (h : Clocked base numCores s) {timer : Timer} {added idled : Nat → Int} {ticks : Int}
    (hticks : timer.getTicks = s.ticks core + ticks) (hnonneg : 0 ≤ ticks) (hsane : timer.isTimerSane = false)
    (hqueue : timer.eventQueue = (s.timing.timers core).eventQueue)
    (hself : added core + idled core = s.added core + s.idled core + ticks)
    (hothers : ∀ k, k ≠ core → added k = s.added k ∧ idled k = s.idled k) :
    Clocked base numCores
      (s.advanceTo { timing := s.timing.setTimer core timer, added := added, idled := idled }) := by
  refine h.advanceTo h.cores ?_ ?_ ?_ ?_
  · intro k
    refine (ticks_setTimer s core k).trans ?_
    dsimp only
    by_cases hk : k = core
    · subst hk
      have hclock := h.clock k
      omega
    · rw [if_neg hk, h.clock, (hothers k hk).1, (hothers k hk).2]
  · intro k
    refine le_of_le_of_eq ?_ (ticks_setTimer s core k).symm
    split
    · rename_i hk
      rw [hticks, hk]
      omega
    · exact le_refl _
  · intro k
    rw [timers_setTimer]
    split
    · intro hc
      rw [hsane] at hc
      cases hc
    · exact h.sane k
  · intro k
    rw [timers_setTimer]
    split
    · rw [hqueue]
      exact h.sorted core
    · exact h.sorted k

theorem Clocked.addTicks (h : Clocked base numCores s) (hsane : (s.timing.timers core).isTimerSane = false)
    (ticks : Nat) :
    Clocked base numCores (s.addTicks core ticks) ∧ (s.addTicks core ticks).ticks core = s.ticks core + ticks := by
  have hticks : ((s.timing.timers core).addTicks ticks).getTicks = s.ticks core + ticks := by
    unfold SystemLoop.ticks Timer.getTicks Timer.addTicks
    simp only [hsane, Bool.false_eq_true, if_false]
    omega
  constructor
  · refine h.goOn hticks (by omega) hsane rfl ?_ ?_
    · rw [Function.update_self]
      omega
    · intro k hk
      exact ⟨Function.update_of_ne hk _ _, rfl⟩
  · exact (ticks_setTimer s core core).trans ((if_pos rfl).trans hticks)

theorem Clocked.idle (h : Clocked base numCores s) (hsliced : Sliced (s.timing.timers core) maxSlice) :
    Clocked base numCores (s.idle core) ∧
      (s.idle core).ticks core = s.ticks core + (s.timing.timers core).downcount := by
  have hticks : (s.timing.timers core).idle.getTicks = s.ticks core + (s.timing.timers core).downcount := by
    unfold SystemLoop.ticks Timer.getTicks Timer.idle
    simp only [hsliced.notSane, Bool.false_eq_true, if_false]
    omega
  constructor
  · refine h.goOn hticks hsliced.nonneg hsliced.notSane rfl ?_ ?_
    · rw [Function.update_self]
      omega
    · intro k hk
      exact ⟨rfl, Function.update_of_ne hk _ _⟩
  · exact (ticks_setTimer s core core).trans ((if_pos rfl).trans hticks)

def Others (core : Nat) (s s' : SystemLoop) : Prop :=
  ∀ k, k ≠ core → Timer.Quiet (s.timing.timers k) (s'.timing.timers k)

private theorem others_setTimer {p : Point} {timer : Timer} (hp : p.timing = s.timing.setTimer core timer) :
    Others core s (s.advanceTo p) := by
  intro k hk
  show Timer.Quiet _ (p.timing.timers k)
  rw [hp, setTimer_of_ne _ _ hk]
  exact Timer.Quiet.refl _

structure Running (core : Nat) (ticks : Int) (s s' : SystemLoop) : Prop where
  others : Others core s s'
  currentTimer : s'.timing.currentTimer = core
  notSane : (s'.timing.timers core).isTimerSane = false
  ticks : s'.ticks core = s.ticks core + ticks

theorem Clocked.foldl_act (h : Clocked base numCores s) (hcur : s.timing.currentTimer = core)
    (hsane : (s.timing.timers core).isTimerSane = false) (acts : List RunAct) :
    Clocked base numCores (acts.foldl (SystemLoop.act core) s) ∧
      Running core (totalTicks acts) s (acts.foldl (SystemLoop.act core) s) := by
  induction acts generalizing s with
  | nil => exact ⟨h, fun _ _ => Timer.Quiet.refl _, hcur, hsane, (Int.add_zero _).symm⟩
  | cons act acts ih =>
    rw [List.foldl_cons]
    cases act with
    | addTicks ticks =>
      obtain ⟨h₁, hticks₁⟩ := h.addTicks hsane ticks
      have hothers₁ : Others core s (s.addTicks core ticks) := others_setTimer rfl
      have hsane₁ : ((s.addTicks core ticks).timing.timers core).isTimerSane = false := by
        show ((s.timing.setTimer core _).timers core).isTimerSane = false
        rw [setTimer_self]
        exact hsane
      obtain ⟨h₂, hrunning⟩ := ih (s := s.addTicks core ticks) h₁ hcur hsane₁
      refine ⟨h₂, ?_, hrunning.currentTimer, hrunning.notSane, ?_⟩
      · exact fun k hk => (hothers₁ k hk).trans (hrunning.others k hk)
      · have hticks₂ : (acts.foldl (SystemLoop.act core) (SystemLoop.act core s (.addTicks ticks))).ticks core =
            (s.addTicks core ticks).ticks core + totalTicks acts := hrunning.ticks
        unfold totalTicks
        omega
    | call cmd =>
      obtain ⟨h₁, hcalls⟩ := h.foldl_exec hcur [cmd]
      obtain ⟨h₂, hrunning⟩ := ih (s := s.exec cmd) h₁ hcalls.currentTimer (hcalls.keeps.sane.trans hsane)
      refine ⟨h₂, ?_, hrunning.currentTimer, hrunning.notSane, ?_⟩
      · exact fun k hk => (hcalls.frame.quiet k hk).trans (hrunning.others k hk)
      · exact hrunning.ticks.trans (congrArg (· + totalTicks acts) hcalls.keeps.getTicks)

def spent (t : Timer) : Option (List RunAct) → Int
  | none => t.downcount
  | some acts => totalTicks acts

theorem Clocked.execute (h : Clocked base numCores s)
    (hsliced : Sliced (s.timing.timers core) maxSlice) (lockStep : Option (Timing × Bool))
    (hlockStep : ∀ moment, lockStep = some (moment, false) → ∀ k < numCores, ∀ e ∈ (moment.timers k).eventQueue,
      maxSlice ≤ e.time - (moment.timers k).getTicks) (run : Option (List RunAct)) :
    Clocked base numCores (s.execute core lockStep run) ∧
      Running core (spent (s.timing.timers core) run) s (s.execute core lockStep run) := by
  -- the slice on which the core is started
  have hstart : Start.Ok numCores { core := core, timer := s.timing.timers core, lockStep := lockStep } := by
    constructor
    · intro e he
      rw [hsliced.getTicks]
      exact hsliced.queue e he
    · intro moment hmoment k hk e he
      exact hsliced.le.trans (hlockStep moment hmoment k hk e he)
  have h₀ : Clocked base numCores (s.setTiming (s.timing.setCurrentTimer core)) :=
    h.setTiming h.cores (fun _ => rfl) h.sane h.sorted
  obtain ⟨s₁, hs₁⟩ : ∃ s₁ : SystemLoop, s₁ = { s.setTiming (s.timing.setCurrentTimer core) with
    starts := { core := core, timer := s.timing.timers core, lockStep := lockStep } :: s.starts } := ⟨_, rfl⟩
  have h₁ : Clocked base numCores s₁ := by
    rw [hs₁]
    refine ⟨h₀.cores, h₀.clock, h₀.sane, h₀.sorted, h₀.points, h₀.monotone, ?_⟩
    intro st hst
    rcases List.mem_cons.mp hst with rfl | hst
    · exact hstart
    · exact h.starts st hst
  have hcur₁ : s₁.timing.currentTimer = core := by
    rw [hs₁]
    rfl
  have htimers₁ : s₁.timing.timers = s.timing.timers := by
    rw [hs₁]
    rfl
  have hticks₁ : s₁.ticks core = s.ticks core := by
    unfold SystemLoop.ticks
    rw [htimers₁]
  have hexecute : s.execute core lockStep run = match run with
      | none => s₁.idle core
      | some acts => acts.foldl (SystemLoop.act core) s₁ := by
    rw [hs₁]
    rfl
  have hothers₁ : ∀ s', Others core s₁ s' → Others core s s' := by
    intro s' hs' k hk
    rw [← htimers₁]
    exact hs' k hk
  rw [hexecute, ← htimers₁]
  rw [← htimers₁] at hsliced
  cases run with
  | none =>
    obtain ⟨h₂, hticks₂⟩ := h₁.idle hsliced
    refine ⟨h₂, hothers₁ _ (others_setTimer rfl), hcur₁, ?_, ?_⟩
    · show ((s₁.timing.setTimer core _).timers core).isTimerSane = false
      rw [setTimer_self]
      exact hsliced.notSane
    · rw [← hticks₁]
      exact hticks₂
  | some acts =>
    obtain ⟨h₂, hrunning⟩ := h₁.foldl_act hcur₁ hsliced.notSane acts
    refine ⟨h₂, hothers₁ _ hrunning.others, hrunning.currentTimer, hrunning.notSane, ?_⟩
    rw [← hticks₁]
    exact hrunning.ticks

/-- The faults of a run on which each `Advance` ends. -/
def DoesNotEnd (fault : LoopFault) : Prop := fault = .advanceDoesNotEnd

def Close (s : SystemLoop) : Prop := ∀ core < s.timing.numCores, s.timing.globalTicks - s.ticks core < 2 ^ 31

structure Delayed (base : Int) (numCores : Nat) (s₀ : SystemLoop) (rest : List Nat) (d : Delays) : Prop where
  clocked : Clocked base numCores d.system
  added : d.system.added = s₀.added
  idled : d.system.idled = s₀.idled
  nodup : rest.Nodup
  cores : ∀ core ∈ rest, core < numCores
  nonneg : 0 ≤ d.maxDelay
  delays : ∀ core < numCores, core ∉ rest → s₀.timing.globalTicks - s₀.ticks core ≤ d.maxDelay
  chosen : 0 < d.maxDelay → d.currentCoreToExecute ∉ rest ∧
    ∃ maxSlice, Sliced (d.system.timing.timers d.currentCoreToExecute) maxSlice

theorem Delayed.delayTurn {d : Delays} (hs : Clocked base numCores s)
    (hclose : Close s) (hlater : env.Later) (h : Delayed base numCores s (core :: rest) d) :
    Outcome DoesNotEnd (Delayed base numCores s rest) (delayTurn s.timing.globalTicks env d core) := by
  obtain ⟨hcore, hnodup⟩ := List.nodup_cons.mp h.nodup
  have hcores : ∀ k ∈ rest, k < numCores := fun k hk => h.cores k (List.mem_cons_of_mem core hk)
  have hticks : d.system.ticks core = s.ticks core := by
    rw [h.clocked.clock, hs.clock, h.added, h.idled]
  have hnonneg := h.nonneg
  -- the delays up to now, with the one of this core
  have hdelays : ∀ maxDelay, d.maxDelay ≤ maxDelay → s.timing.globalTicks - d.system.ticks core ≤ maxDelay →
      ∀ k < numCores, k ∉ rest → s.timing.globalTicks - s.ticks k ≤ maxDelay := by
    intro maxDelay hle hcur k hk hrest
    by_cases hkc : k = core
    · rw [hkc, ← hticks]
      exact hcur
    · exact (h.delays k hk (List.not_mem_cons_of_ne_of_not_mem hkc hrest)).trans hle
  unfold SystemLoop.delayTurn
  split
  · rename_i hdelayed
    have hsmall := hclose core (by rw [hs.cores]; exact h.cores core (List.mem_cons_self ..))
    rcases h.clocked.turn core (hlater.delayed core) with herror | ⟨s₁, hs₁, h₁, hframe₁, hahead₁⟩
    · rw [herror]
      rfl
    · rw [hs₁]
      dsimp only
      obtain ⟨delay, hdelay⟩ : ∃ delay, delay = s.timing.globalTicks - d.system.ticks core := ⟨_, rfl⟩
      rw [← hdelay]
      obtain ⟨h₂, hsliced⟩ := h₁.setNextSlice hahead₁ (show 0 ≤ delay by omega) (by omega)
      have hframe₂ := hframe₁.trans (frame_modifyTimer s₁ core fun t => t.setNextSlice delay)
      rw [← hdelay] at hdelays
      split
      · rename_i hlt
        exact ⟨h₂, hframe₂.added.trans h.added, hframe₂.idled.trans h.idled, hnodup, hcores, by dsimp only; omega,
          hdelays delay (le_of_lt hlt) (le_refl _), fun _ => ⟨hcore, delay, hsliced⟩⟩
      · rename_i hlt
        refine ⟨h₂, hframe₂.added.trans h.added, hframe₂.idled.trans h.idled, hnodup, hcores, hnonneg,
          hdelays d.maxDelay (le_refl _) (by omega), ?_⟩
        intro hpos
        obtain ⟨hchosen, maxSlice, hsliced₀⟩ := h.chosen hpos
        have hne := List.ne_of_not_mem_cons hchosen
        have hrest := List.not_mem_of_not_mem_cons hchosen
        exact ⟨hrest, maxSlice, hsliced₀.quiet (hframe₂.quiet _ hne)⟩
  · rename_i hdelayed
    refine ⟨h.clocked, h.added, h.idled, hnodup, hcores, hnonneg, hdelays d.maxDelay (le_refl _) (by omega), ?_⟩
    intro hpos
    obtain ⟨hchosen, hsliced₀⟩ := h.chosen hpos
    exact ⟨fun hc => hchosen (List.mem_cons_of_mem core hc), hsliced₀⟩

/-- The first loop of the lock-step phase, with the cores that are left. -/
structure Slicing (base : Int) (numCores : Nat) (rest : List Nat) (p : SystemLoop × Int) : Prop where
  clocked : Clocked base numCores p.1
  pos : 0 < p.2
  le : p.2 ≤ maxSliceLength
  ahead : ∀ core < numCores, core ∉ rest → (p.1.timing.timers core).Ahead
  slice : ∀ core < numCores, core ∉ rest → ∀ e ∈ (p.1.timing.timers core).eventQueue,
    p.2 ≤ e.time - (p.1.timing.timers core).executedTicks

theorem getMaxSliceLength_ok {t : Timer} (h : t.Ahead) (hsorted : t.eventQueue.Pairwise Event.le) :
    ∃ slice, t.getMaxSliceLength = .ok slice ∧ 0 < slice ∧ ∀ e ∈ t.eventQueue, slice ≤ e.time - t.executedTicks := by
  unfold Timer.getMaxSliceLength
  have hqueue := h.queue
  cases hq : t.eventQueue with
  | nil => exact ⟨maxSliceLength, rfl, by decide, fun e he => by cases he⟩
  | cons e₀ rest =>
    rw [hq] at hsorted hqueue
    have hfirst := hqueue e₀ (List.mem_cons_self ..)
    refine ⟨e₀.time - t.executedTicks, ?_, by omega, ?_⟩
    · dsimp only
      rw [if_pos (by omega)]
    · intro e he
      rcases List.mem_cons.mp he with rfl | he
      · omega
      · have hle := (List.pairwise_cons.mp hsorted).1 e he
        unfold Event.le at hle
        omega

theorem Slicing.sliceTurn {p : SystemLoop × Int} (hlater : env.Later) (h : Slicing base numCores (core :: rest) p) :
    Outcome DoesNotEnd (Slicing base numCores rest) (sliceTurn env p core) := by
  unfold SystemLoop.sliceTurn
  rcases h.clocked.turn core (hlater.lockStep core) with herror | ⟨s₁, hs₁, h₁, hframe, hahead⟩
  · rw [herror]
    rfl
  · obtain ⟨slice, hslice, hpos, hle⟩ := getMaxSliceLength_ok hahead (h₁.sorted core)
    rw [hs₁]
    dsimp only
    rw [hslice]
    have h0 := h.pos
    have hmax := h.le
    refine ⟨h₁, ?_, ?_, ?_, ?_⟩
    · omega
    · omega
    · intro k hk hrest
      by_cases hkc : k = core
      · rw [hkc]
        exact hahead
      · exact (h.ahead k hk (List.not_mem_cons_of_ne_of_not_mem hkc hrest)).quiet (hframe.quiet k hkc)
    · intro k hk hrest e he
      dsimp only at he ⊢
      by_cases hkc : k = core
      · rw [hkc] at he ⊢
        have hle' := hle e he
        omega
      · have hquiet := hframe.quiet k hkc
        have hold := h.slice k hk (List.not_mem_cons_of_ne_of_not_mem hkc hrest) e (hquiet.queue e he)
        rw [hquiet.executedTicks]
        omega

/-- The second loop of the lock-step phase, with the cores that are left. -/
structure Stepping (base : Int) (numCores : Nat) (maxSlice : Int) (rest : List Nat) (l : LockStep) : Prop where
  clocked : Clocked base numCores l.system
  nodup : rest.Nodup
  cores : ∀ core ∈ rest, core < numCores
  ahead : ∀ core ∈ rest, (l.system.timing.timers core).Ahead
  nonneg : 0 ≤ l.maxSlice
  small : l.maxSlice < 2 ^ 31
  le : l.overshot = false → l.maxSlice ≤ maxSlice

theorem Stepping.lockStepTurn {l : LockStep} {moment : Timing}
    (hmoment : ∀ k < numCores, ∀ e ∈ (moment.timers k).eventQueue, maxSlice ≤ e.time - (moment.timers k).getTicks)
    (hshort : env.Short numCores) (h : Stepping base numCores maxSlice (core :: rest) l) :
    Stepping base numCores maxSlice rest (lockStepTurn moment env l core) := by
  obtain ⟨hcore, hnodup⟩ := List.nodup_cons.mp h.nodup
  have hahead := h.ahead core (List.mem_cons_self ..)
  obtain ⟨h₁, hsliced⟩ := h.clocked.setNextSlice hahead h.nonneg h.small
  obtain ⟨s₁, hs₁⟩ : ∃ s₁, s₁ = l.system.modifyTimer core fun t => t.setNextSlice l.maxSlice := ⟨_, rfl⟩
  have hframe : Frame core l.system s₁ := by
    rw [hs₁]
    exact frame_modifyTimer ..
  rw [← hs₁] at h₁ hsliced
  obtain ⟨h₂, hrunning⟩ := h₁.execute hsliced (some (moment, l.overshot)) (by
    rintro moment' heq k hk e he
    obtain ⟨rfl, hovershot⟩ : moment = moment' ∧ l.overshot = false := by simpa using heq
    exact (h.le hovershot).trans (hmoment k hk e he)) (env.run core)
  have hspent : 0 ≤ spent (s₁.timing.timers core) (env.run core) ∧
      spent (s₁.timing.timers core) (env.run core) < 2 ^ 31 := by
    have hnonneg := hsliced.nonneg
    have hle := hsliced.le
    have hsmall := h.small
    cases hrun : env.run core with
    | none => exact ⟨hnonneg, by show (s₁.timing.timers core).downcount < 2 ^ 31; omega⟩
    | some acts => exact ⟨totalTicks_nonneg acts, hshort core (h.cores core (List.mem_cons_self ..)) acts hrun⟩
  have hticks := hrunning.ticks
  unfold SystemLoop.lockStepTurn
  rw [← hs₁]
  refine ⟨h₂, hnodup, fun k hk => h.cores k (List.mem_cons_of_mem core hk), ?_, ?_, ?_, ?_⟩
  · intro k hk
    have hne : k ≠ core := fun hc => hcore (hc ▸ hk)
    exact ((h.ahead k (List.mem_cons_of_mem core hk)).quiet (hframe.quiet k hne)).quiet (hrunning.others k hne)
  · dsimp only
    omega
  · dsimp only
    omega
  · intro hovershot
    dsimp only at hovershot ⊢
    obtain ⟨hold, hnew⟩ := Bool.or_eq_false_iff.mp hovershot
    have hnew := of_decide_eq_false hnew
    have hle := h.le hold
    have hle' := hsliced.le
    omega

theorem Stepping.foldl_lockStepTurn {l : LockStep} {moment : Timing}
    (hmoment : ∀ k < numCores, ∀ e ∈ (moment.timers k).eventQueue, maxSlice ≤ e.time - (moment.timers k).getTicks)
    (hshort : env.Short numCores) (h : Stepping base numCores maxSlice rest l) :
    Stepping base numCores maxSlice [] (rest.foldl (SystemLoop.lockStepTurn moment env) l) := by
  induction rest generalizing l with
  | nil => exact h
  | cons core rest ih =>
    exact ih (h.lockStepTurn hmoment hshort)

/-- What the iteration needs: no core is too far behind, and in the lock-step phase no core runs for too long. -/
structure Clean (s : SystemLoop) (env : Iteration) : Prop where
  close : Close s
  short : (∀ core < s.timing.numCores, s.timing.globalTicks - s.ticks core ≤ minDelay) →
    env.Short s.timing.numCores

theorem Clocked.runLoop (h : Clocked base numCores s) (hlater : env.Later) (hclean : Clean s env) :
    Outcome DoesNotEnd (Clocked base numCores) (s.runLoop env) := by
  refine Outcome.bind (P := Delayed base numCores s []) ?_ ?_
  · refine Outcome.foldlM_rest ?_ fun d core rest hd => hd.delayTurn h hclean.close hlater
    refine ⟨h, rfl, rfl, List.nodup_range, ?_, le_refl _, ?_, ?_⟩
    · intro core hcore
      rw [← h.cores]
      exact List.mem_range.mp hcore
    · intro core hcore hrest
      rw [← h.cores] at hcore
      exact absurd (List.mem_range.mpr hcore) hrest
    · intro hpos
      exact absurd hpos (lt_irrefl _)
  · intro d hd
    split
    · -- one core runs alone
      rename_i hmin
      have hpos : 0 < d.maxDelay := by
        unfold minDelay at hmin
        omega
      obtain ⟨-, maxSlice, hsliced⟩ := hd.chosen hpos
      obtain ⟨h₁, -⟩ := hd.clocked.execute hsliced none (fun moment hc => by cases hc)
        (env.run d.currentCoreToExecute)
      exact (h₁.foldl_exec rfl env.reschedule).1
    · -- all cores run in lock step
      rename_i hmin
      have hshort := hclean.short (by
        intro core hcore
        rw [h.cores] at hcore
        have hdelay := hd.delays core hcore (List.not_mem_nil)
        omega)
      rw [h.cores] at hshort
      refine Outcome.bind (P := Slicing base numCores []) ?_ ?_
      · refine Outcome.foldlM_rest ?_ fun p core rest hp => hp.sliceTurn hlater
        refine ⟨hd.clocked, show (0 : Int) < maxSliceLength by decide, le_refl _, ?_, ?_⟩
        · intro core hcore hrest
          rw [← h.cores] at hcore
          exact absurd (List.mem_range.mpr hcore) hrest
        · intro core hcore hrest
          rw [← h.cores] at hcore
          exact absurd (List.mem_range.mpr hcore) hrest
      · intro p hp
        have hmoment : ∀ k < numCores, ∀ e ∈ (p.1.timing.timers k).eventQueue,
            p.2 ≤ e.time - (p.1.timing.timers k).getTicks := by
          intro k hk e he
          rw [(hp.ahead k hk List.not_mem_nil).getTicks]
          exact hp.slice k hk List.not_mem_nil e he
        have hpos := hp.pos
        have hle := hp.le
        unfold maxSliceLength at hle
        have hstepping : Stepping base numCores p.2 (List.range s.timing.numCores)
            { system := p.1, maxSlice := p.2 } := by
          rw [h.cores]
          exact ⟨hp.clocked, List.nodup_range, fun core hcore => List.mem_range.mp hcore,
            fun core hcore => hp.ahead core (List.mem_range.mp hcore) List.not_mem_nil, by dsimp only; omega,
            by dsimp only; omega, fun _ => le_refl _⟩
        have hlast := hstepping.foldl_lockStepTurn hmoment hshort
        exact (hlast.clocked.foldl_exec rfl env.reschedule).1

theorem initial_clocked (numCores : Nat) (base : Int) : Clocked base numCores (initial numCores base) := by
  have hticks : ∀ core, (initial numCores base).ticks core = base := by
    intro core
    simp [initial, SystemLoop.ticks, Timing.init, Timer.getTicks]
  constructor
  · rfl
  · intro core
    rw [hticks]
    simp [initial]
  · intro core _
    rfl
  · intro core
    exact List.Pairwise.nil
  · intro p hp core
    obtain rfl := List.mem_singleton.mp hp
    refine ⟨?_, le_refl _⟩
    refine (hticks core).trans ?_
    simp
  · exact List.pairwise_singleton _ _
  · intro st hst
    cases hst

def CleanRun : SystemLoop → List Iteration → Prop
  | _, [] => True
  | s, env :: iterations => Clean s env ∧ ∀ s', s.runLoop env = .ok s' → CleanRun s' iterations

theorem Clocked.run (h : Clocked base numCores s) {iterations : List Iteration}
    (hlater : ∀ env ∈ iterations, env.Later) (hclean : CleanRun s iterations) :
    Outcome DoesNotEnd (Clocked base numCores) (s.run iterations) := by
  induction iterations generalizing s with
  | nil => exact h
  | cons env iterations ih =>
    unfold SystemLoop.run
    rw [List.foldlM_cons]
    have hfirst := h.runLoop (hlater env (List.mem_cons_self ..)) hclean.1
    cases hs' : s.runLoop env with
    | error fault =>
      rw [hs'] at hfirst
      exact hfirst
    | ok s' =>
      rw [hs'] at hfirst
      exact ih hfirst (fun env' henv' => hlater env' (List.mem_cons_of_mem env henv')) (hclean.2 s' hs')

end Steps

instance (s : SystemLoop) : Decidable (Close s) :=
  inferInstanceAs (Decidable (∀ core < s.timing.numCores, s.timing.globalTicks - s.ticks core < 2 ^ 31))

/-- Before each iteration no core is too far behind. -/
def staysClose (s : SystemLoop) : List Iteration → Bool
  | [] => true
  | env :: iterations =>
    decide (Close s) && match s.runLoop env with
      | .ok s' => staysClose s' iterations
      | .error _ => true

private theorem cleanRun_of_staysClose {s : SystemLoop} {iterations : List Iteration}
    (hshort : ∀ env ∈ iterations, ∀ numCores, env.Short numCores) (h : staysClose s iterations = true) :
    CleanRun s iterations := by
  induction iterations generalizing s with
  | nil => trivial
  | cons env iterations ih =>
    obtain ⟨hclose, hrest⟩ := (Bool.and_eq_true _ _).mp h
    refine ⟨⟨of_decide_eq_true hclose, fun _ => hshort env (List.mem_cons_self ..) _⟩, ?_⟩
    intro s' hs'
    rw [hs'] at hrest
    exact ih (fun env' henv' => hshort env' (List.mem_cons_of_mem env henv')) hrest

/-- An `Advance` on which no event is due, and a `Reschedule` that does nothing. -/
def quietTurn : TurnEnv := { callback := fun _ _ _ => [], fuel := 1, reschedule := [] }

def quietIteration (run : Nat → Option (List RunAct)) : Iteration :=
  { delayed := fun _ => quietTurn, lockStep := fun _ => quietTurn, run := run, reschedule := [] }

theorem quietIteration_later (run : Nat → Option (List RunAct)) : (quietIteration run).Later :=
  ⟨fun _ _ hcmd => (List.not_mem_nil hcmd).elim, fun _ _ hcmd => (List.not_mem_nil hcmd).elim⟩

/-- The first core overshoots its slice, and the other one runs alone until it has caught up. -/
def sampleIterations : List Iteration :=
  [quietIteration fun core => if core = 0 then some [.call (.schedule 30000 0 0 none false), .addTicks 20100] else some [],
    quietIteration fun _ => none,
    quietIteration fun _ => none]

/-- The first core runs for `2 ^ 31` ticks.  The other one, which has an event far in the future, then idles. -/
def overshootIterations : List Iteration :=
  [quietIteration fun core =>
      if core = 0 then some [.addTicks (2 ^ 31)] else some [.call (.schedule (2 ^ 33) 0 0 none false)],
    quietIteration fun _ => none]

end SystemLoop

end SweepDSEmu.Timing
