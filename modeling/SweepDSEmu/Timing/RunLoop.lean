import SweepDSEmu.Timing.Basic

/-!
# The loop of the cores

`System::RunLoop` gives the cores of the system slices of time.  A core that is behind the others by more than
`min_delay` ticks runs alone.  Otherwise all of them run one after the other, each for as long as the one before.

* What the rest of the system does is an argument of an iteration: the callbacks of the events, the calls that
  `Reschedule` makes, and for each core whether it has a thread, and what this thread does.
* `points` and `starts` record the states between the steps and the slices on which cores are started.  No function
  reads them.
* Ticks are integers.
-/

namespace SweepDSEmu.Timing

def globalTicks (t : Timing) : Int :=
  (List.range t.numCores).foldl (fun m core => max m (t.timers core).getTicks) (t.timers 0).getTicks

/-- A failed assertion, or an `Advance` that does not end. -/
inductive LoopFault where
  /-- "next_event->time - executed_ticks > 0" -/
  | maxSlice
  | advanceDoesNotEnd
  deriving DecidableEq

def Timer.getMaxSliceLength (t : Timer) : Except LoopFault Int :=
  match t.eventQueue with
  | [] => .ok maxSliceLength
  | e :: _ => if e.time - t.executedTicks > 0 then .ok (e.time - t.executedTicks) else .error .maxSlice

/-- What a thread does while it runs on a core. -/
inductive RunAct where
  | addTicks (ticks : Nat)
  | call (cmd : Cmd)

/-- The callbacks of the events of one `Advance`, a bound on their number, and the calls of the `Reschedule` behind
it. -/
structure TurnEnv where
  callback : Callback
  fuel : Nat
  reschedule : List Cmd

/-- What happens in an iteration.  A core without a thread idles. -/
structure Iteration where
  delayed : Nat → TurnEnv
  lockStep : Nat → TurnEnv
  run : Nat → Option (List RunAct)
  reschedule : List Cmd

/-- The clocks between two steps, with the ticks that have been added and idled. -/
structure Point where
  timing : Timing
  added : Nat → Int
  idled : Nat → Int

/-- A core is started on a slice.  In a lock-step phase, `lockStep` has the clocks at the moment when `max_slice` was
computed, and tells whether a core has overshot its slice since then. -/
structure Start where
  core : Nat
  timer : Timer
  lockStep : Option (Timing × Bool)

structure SystemLoop extends Point where
  points : List Point := []
  starts : List Start := []

namespace SystemLoop

/-- A step that changes the clocks, and is recorded. -/
def advanceTo (s : SystemLoop) (p : Point) : SystemLoop := { s with toPoint := p, points := p :: s.points }

def setTiming (s : SystemLoop) (t : Timing) : SystemLoop := s.advanceTo { s.toPoint with timing := t }

def exec (s : SystemLoop) (cmd : Cmd) : SystemLoop := s.setTiming (s.timing.exec cmd)

def modifyTimer (s : SystemLoop) (core : Nat) (f : Timer → Timer) : SystemLoop :=
  s.setTiming (s.timing.setTimer core (f (s.timing.timers core)))

def advanceLoop (callback : Callback) (core : Nat) : Nat → SystemLoop → Option SystemLoop
  | 0, _ => none
  | fuel + 1, s =>
    match (s.timing.timers core).popDue with
    | some (e, timer) =>
      let s := s.setTiming (s.timing.setTimer core timer)
      advanceLoop callback core fuel ((callback s.timing e (timer.cyclesLate e)).foldl exec s)
    | none => some s

def advance (s : SystemLoop) (callback : Callback) (core fuel : Nat) : Option SystemLoop :=
  (advanceLoop callback core fuel (s.modifyTimer core Timer.beginAdvance)).map fun s =>
    s.modifyTimer core fun t => { t with isTimerSane := false }

def turn (s : SystemLoop) (core : Nat) (env : TurnEnv) : Except LoopFault SystemLoop :=
  match (s.setTiming (s.timing.setCurrentTimer core)).advance env.callback core env.fuel with
  | none => .error .advanceDoesNotEnd
  | some s => .ok (env.reschedule.foldl exec s)

def ticks (s : SystemLoop) (core : Nat) : Int := (s.timing.timers core).getTicks

def addTicks (s : SystemLoop) (core ticks : Nat) : SystemLoop :=
  s.advanceTo
    { timing := s.timing.setTimer core ((s.timing.timers core).addTicks ticks)
      added := Function.update s.added core (s.added core + ticks)
      idled := s.idled }

def idle (s : SystemLoop) (core : Nat) : SystemLoop :=
  s.advanceTo
    { timing := s.timing.setTimer core (s.timing.timers core).idle
      added := s.added
      idled := Function.update s.idled core (s.idled core + (s.timing.timers core).downcount) }

def act (core : Nat) (s : SystemLoop) : RunAct → SystemLoop
  | .addTicks ticks => s.addTicks core ticks
  | .call cmd => s.exec cmd

/-- A core that is the running one idles, or runs its thread. -/
def execute (s : SystemLoop) (core : Nat) (lockStep : Option (Timing × Bool)) (run : Option (List RunAct)) :
    SystemLoop :=
  let s := s.setTiming (s.timing.setCurrentTimer core)
  let s := { s with starts := { core := core, timer := s.timing.timers core, lockStep := lockStep } :: s.starts }
  match run with
  | none => s.idle core
  | some acts => acts.foldl (act core) s

structure Delays where
  system : SystemLoop
  maxDelay : Int := 0
  currentCoreToExecute : Nat := 0

def delayTurn (globalTicks : Int) (env : Iteration) (d : Delays) (core : Nat) : Except LoopFault Delays :=
  if d.system.ticks core < globalTicks then
    let delay := globalTicks - d.system.ticks core
    match d.system.turn core (env.delayed core) with
    | .error fault => .error fault
    | .ok s =>
      let s := s.modifyTimer core fun t => t.setNextSlice delay
      if d.maxDelay < delay then .ok { system := s, maxDelay := delay, currentCoreToExecute := core }
      else .ok { d with system := s }
  else .ok d

def minDelay : Int := 100

def sliceTurn (env : Iteration) (p : SystemLoop × Int) (core : Nat) : Except LoopFault (SystemLoop × Int) :=
  match p.1.turn core (env.lockStep core) with
  | .error fault => .error fault
  | .ok s =>
    match (s.timing.timers core).getMaxSliceLength with
    | .error fault => .error fault
    | .ok slice => .ok (s, min p.2 slice)

structure LockStep where
  system : SystemLoop
  maxSlice : Int
  /-- A core has overshot its slice. -/
  overshot : Bool := false

def lockStepTurn (moment : Timing) (env : Iteration) (l : LockStep) (core : Nat) : LockStep :=
  let s := l.system.modifyTimer core fun t => t.setNextSlice l.maxSlice
  let startTicks := s.ticks core
  let slice := (s.timing.timers core).downcount
  let s := s.execute core (some (moment, l.overshot)) (env.run core)
  let executed := s.ticks core - startTicks
  { system := s, maxSlice := executed, overshot := l.overshot || decide (slice < executed) }

def runLoop (s : SystemLoop) (env : Iteration) : Except LoopFault SystemLoop := do
  let cores := List.range s.timing.numCores
  let d ← cores.foldlM (delayTurn s.timing.globalTicks env) { system := s }
  if minDelay < d.maxDelay then
    let s := d.system.execute d.currentCoreToExecute none (env.run d.currentCoreToExecute)
    return env.reschedule.foldl exec s
  else
    let p ← cores.foldlM (sliceTurn env) (d.system, maxSliceLength)
    let l := cores.foldl (lockStepTurn p.1.timing env) { system := p.1, maxSlice := p.2 }
    return env.reschedule.foldl exec l.system

def initial (numCores : Nat) (baseTicks : Int) : SystemLoop :=
  let p := { timing := Timing.init numCores baseTicks, added := fun _ => 0, idled := fun _ => 0 }
  { toPoint := p, points := [p] }

def run (s : SystemLoop) (iterations : List Iteration) : Except LoopFault SystemLoop := iterations.foldlM runLoop s

end SystemLoop

end SweepDSEmu.Timing
