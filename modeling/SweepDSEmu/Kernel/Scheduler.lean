import SweepDSEmu.Lib.ThreadQueueList

/-!
# The scheduler

The part of `thread.cpp` that decides which thread runs on a core: the status, the priority and the core of each thread,
the ready queue of each core, the limiter of core 1, `PopNextReadyThread`, `SwitchContext` and `Reschedule`.

* A thread is named by the identifier of its kernel object.  A thread that has not been created is `dead`.
* The members of `Thread` are functions from threads.
* What a thread that stops does to other threads, through the objects that they wait for, is a list of effects: some of
  them are resumed, and some get another priority.
* Loops of the source that are not structural have a bound, and running out of it is a fault.
-/

namespace SweepDSEmu

abbrev ThreadId := Nat

inductive ThreadStatus where
  | running
  | ready
  | waitArb
  | waitSleep
  | waitIPC
  | waitSynchAny
  | waitSynchAll
  | waitHleEvent
  | dormant
  | dead
  deriving DecidableEq

def threadPrioLowest : Nat := 63

def numQueues : Nat := threadPrioLowest + 1

inductive UnscheduleMode where
  | svc
  | gdb
  | frontend
  deriving DecidableEq

inductive ResourceLimitCategory where
  | application
  | sysApplet
  | libApplet
  | other
  deriving DecidableEq

inductive Core1ScheduleMode where
  | multi
  | single
  deriving DecidableEq

inductive SchedState where
  | app
  | sys
  deriving DecidableEq

def preemptionDisabled : Int := 0

def preemptionExcempted : Int := 10000

inductive KernelFault where
  /-- "Thread is waking up while waiting for objects". -/
  | wakingUpWhileWaiting
  /-- The wakeup callback of a ready thread has not been cleared. -/
  | callbackNotCleared
  /-- "Invalid priority value." -/
  | invalidPriority
  /-- "object unavailable!" -/
  | objectUnavailable
  /-- "Inconsistent thread statuses in waiting_threads". -/
  | inconsistentStatuses
  /-- "Inconsistent AddressArbiter state". -/
  | inconsistentArbiter
  /-- "Thread is not waiting for anything". -/
  | notWaiting
  /-- An assertion in a wakeup callback. -/
  | callback
  /-- The translation of a command buffer failed. -/
  | translation
  /-- No thread manager has this index. -/
  | badCore
  /-- A null pointer, or a link of the ready queue that is no level. -/
  | badPointer
  | outOfFuel
  deriving DecidableEq

structure CpuLimiter where
  ready : Bool := false
  active : Bool := false
  appCpuTime : Int := preemptionDisabled
  currState : SchedState := .app
  sleepingThreadIds : List ThreadId := []

/-- `ThreadManager`.  `warnings` counts the messages of `SwitchContext` about a thread whose status changed during
scheduling. -/
structure ThreadManager where
  currentThread : Option ThreadId := none
  readyQueue : ThreadQueueList ThreadId := {}
  threadList : List ThreadId := []
  warnings : Nat := 0

structure Scheduler where
  status : ThreadId → ThreadStatus := fun _ => .dead
  currentPriority : ThreadId → Nat := fun _ => 0
  nominalPriority : ThreadId → Nat := fun _ => 0
  coreId : ThreadId → Nat := fun _ => 0
  ownerProcess : ThreadId → Nat := fun _ => 0
  resourceLimitCategory : ThreadId → ResourceLimitCategory := fun _ => .application
  unscheduleMode : ThreadId → UnscheduleMode → Bool := fun _ _ => false
  /-- The wakeup events of a thread that are scheduled. -/
  wakeupEvents : ThreadId → Nat := fun _ => 0
  managers : Nat → ThreadManager := fun _ => {}
  currentScheduleMode : Core1ScheduleMode := .multi
  limiters : Core1ScheduleMode → CpuLimiter := fun _ => {}
  /-- The limit value of `CpuTime` for a category. -/
  cpuTimeLimit : ResourceLimitCategory → Int := fun _ => 0
  nextObjectId : Nat := 0

namespace Scheduler

def canSchedule (s : Scheduler) (t : ThreadId) : Bool :=
  !(s.unscheduleMode t .svc || s.unscheduleMode t .gdb || s.unscheduleMode t .frontend)

def setStatus (s : Scheduler) (t : ThreadId) (status : ThreadStatus) : Scheduler :=
  { s with status := Function.update s.status t status }

def modifyManager (s : Scheduler) (core : Nat) (f : ThreadManager → ThreadManager) : Scheduler :=
  { s with managers := Function.update s.managers core (f (s.managers core)) }

def modifyQueue (s : Scheduler) (core : Nat) (f : ThreadQueueList ThreadId → ThreadQueueList ThreadId) : Scheduler :=
  s.modifyManager core fun m => { m with readyQueue := f m.readyQueue }

def boostPriority (s : Scheduler) (t : ThreadId) (priority : Nat) : Scheduler :=
  let s :=
    if s.status t = .ready then s.modifyQueue (s.coreId t) fun q => q.move t (s.currentPriority t) priority
    else s.modifyQueue (s.coreId t) fun q => q.prepare priority
  { s with currentPriority := Function.update s.currentPriority t priority }

def makeReady (s : Scheduler) (t : ThreadId) : Scheduler :=
  (s.modifyQueue (s.coreId t) fun q => q.pushBack (s.currentPriority t) t).setStatus t .ready

def resumeFromWait (s : Scheduler) (t : ThreadId) : Scheduler :=
  match s.status t with
  | .waitSynchAll | .waitSynchAny | .waitHleEvent | .waitArb | .waitSleep | .waitIPC | .dormant => s.makeReady t
  | .ready | .running | .dead => s

def setPriority (s : Scheduler) (t : ThreadId) (priority : Nat) : Except KernelFault Scheduler :=
  if priority ≤ threadPrioLowest then
    .ok { s.boostPriority t priority with nominalPriority := Function.update s.nominalPriority t priority }
  else .error .invalidPriority

def updatePriority (s : Scheduler) (t : ThreadId) (mutexPriorities : List Nat) : Scheduler :=
  s.boostPriority t (mutexPriorities.foldl min (s.nominalPriority t))

/-- `UnscheduleEvent` for the wakeup events of a thread. -/
def unscheduleWakeup (s : Scheduler) (t : ThreadId) : Scheduler :=
  { s with wakeupEvents := Function.update s.wakeupEvents t 0 }

/-- The beginning of `Stop`, up to the change of the status. -/
def kill (s : Scheduler) (t : ThreadId) : Scheduler :=
  let s := s.unscheduleWakeup t
  let s := if s.status t = .ready then s.modifyQueue (s.coreId t) fun q => q.remove (s.currentPriority t) t else s
  s.setStatus t .dead

/-- What an object does to a thread that waits for it, or that holds it. -/
inductive Effect where
  | resume (t : ThreadId)
  | updatePriority (t : ThreadId) (mutexPriorities : List Nat)

def applyEffect (s : Scheduler) : Effect → Scheduler
  | .resume t => s.resumeFromWait t
  | .updatePriority t mutexPriorities => s.updatePriority t mutexPriorities

def stop (s : Scheduler) (t : ThreadId) (effects : List Effect) : Scheduler := effects.foldl applyEffect (s.kill t)

def unlist (s : Scheduler) (core : Nat) (t : ThreadId) : Scheduler :=
  s.modifyManager core fun m => { m with threadList := m.threadList.filter (· ≠ t) }

def exitCurrentThread (s : Scheduler) (core : Nat) (effects : ThreadId → List Effect) : Except KernelFault Scheduler :=
  match (s.managers core).currentThread with
  | none => .error .badPointer
  | some t => .ok ((s.stop t (effects t)).unlist core t)

/-- The loop of `TerminateProcessThreads`, over the rest of the list. -/
def terminateOthers (core process : Nat) (effects : ThreadId → List Effect) (s : Scheduler) (t : ThreadId) :
    Scheduler :=
  if (s.managers core).currentThread = some t ∨ s.ownerProcess t ≠ process then s
  else (s.stop t (effects t)).unlist core t

def terminateProcessThreads (s : Scheduler) (core process : Nat) (effects : ThreadId → List Effect) :
    Except KernelFault Scheduler :=
  let s := (s.managers core).threadList.foldl (terminateOthers core process effects) s
  match (s.managers core).currentThread with
  | none => .ok s
  | some t => if s.ownerProcess t = process then s.exitCurrentThread core effects else .ok s

def waitCurrentThread (s : Scheduler) (core : Nat) (status : ThreadStatus) : Scheduler :=
  match (s.managers core).currentThread with
  | none => s
  | some t => if s.status t = .running then s.setStatus t status else s

def wakeAfterDelay (s : Scheduler) (t : ThreadId) (nanoseconds : Int) : Scheduler :=
  if nanoseconds = -1 then s
  else { s with wakeupEvents := Function.update s.wakeupEvents t (s.wakeupEvents t + 1) }

/-- The part of `CreateThread` that is about scheduling, for a thread `t`. -/
def createThread (s : Scheduler) (t : ThreadId) (priority core process : Nat) (category : ResourceLimitCategory)
    (makeReady : Bool) : Scheduler :=
  let s := s.modifyManager core fun m =>
    { m with threadList := m.threadList ++ [t], readyQueue := m.readyQueue.prepare priority }
  let s := { s with
    status := Function.update s.status t .dormant
    currentPriority := Function.update s.currentPriority t priority
    nominalPriority := Function.update s.nominalPriority t priority
    coreId := Function.update s.coreId t core
    ownerProcess := Function.update s.ownerProcess t process
    resourceLimitCategory := Function.update s.resourceLimitCategory t category
    unscheduleMode := Function.update s.unscheduleMode t fun _ => false
    nextObjectId := max s.nextObjectId (t + 1) }
  if makeReady then s.makeReady t else s

def cpuLimiter (s : Scheduler) : CpuLimiter := s.limiters s.currentScheduleMode

def modifyLimiter (s : Scheduler) (f : CpuLimiter → CpuLimiter) : Scheduler :=
  { s with limiters := Function.update s.limiters s.currentScheduleMode (f s.cpuLimiter) }

/-- The condition under which `DoTimeLimit` blocks a thread. -/
def timeLimited (s : Scheduler) (t : ThreadId) : Bool :=
  s.cpuLimiter.ready && s.cpuLimiter.active && s.cpuTimeLimit (s.resourceLimitCategory t) != preemptionExcempted &&
    (s.resourceLimitCategory t == .application && s.cpuLimiter.currState == .sys ||
      s.resourceLimitCategory t == .other && s.cpuLimiter.currState == .app)

/-- What `DoTimeLimit` does to a thread that it blocks. -/
def putToSleep (s : Scheduler) (t : ThreadId) : Scheduler :=
  (s.setStatus t .waitSleep).modifyLimiter fun l => { l with sleepingThreadIds := l.sleepingThreadIds ++ [t] }

/-- One turn of the loop of `WakeupSleepingThreads`. -/
def wakeupSleeping (s : Scheduler) (t : ThreadId) : Scheduler :=
  if t ∈ (s.managers 1).threadList ∧ s.status t = .waitSleep then s.resumeFromWait t else s

def wakeupSleepingThreads (s : Scheduler) : Scheduler :=
  (s.cpuLimiter.sleepingThreadIds.foldl wakeupSleeping s).modifyLimiter fun l => { l with sleepingThreadIds := [] }

/-- The loop of `PopNextReadyThread` that takes threads from the queue until one can be scheduled.  The threads that
cannot are skipped. -/
def popSchedulable (s : Scheduler)
    (pop : ThreadQueueList ThreadId → Option (Option (Nat × ThreadId) × ThreadQueueList ThreadId)) :
    Nat → ThreadQueueList ThreadId → List (Nat × ThreadId) →
      Except KernelFault (Option ThreadId × ThreadQueueList ThreadId × List (Nat × ThreadId))
  | 0, _, _ => .error .outOfFuel
  | n + 1, q, skipped =>
    match pop q with
    | none => .error .badPointer
    | some (none, q) => .ok (none, q, skipped)
    | some (some (priority, t), q) =>
      if s.canSchedule t then .ok (some t, q, skipped)
      else s.popSchedulable pop n q (skipped ++ [(priority, t)])

def pushSkipped (q : ThreadQueueList ThreadId) (skipped : List (Nat × ThreadId)) : ThreadQueueList ThreadId :=
  skipped.foldr (fun e q => q.pushFront e.1 e.2) q

/-- The thread that goes on running if no better one is ready. -/
def keepsRunning (s : Scheduler) (core : Nat) : Option ThreadId :=
  (s.managers core).currentThread.filter fun t => s.status t = .running ∧ s.canSchedule t

def popFor (s : Scheduler) (core : Nat) :
    ThreadQueueList ThreadId → Option (Option (Nat × ThreadId) × ThreadQueueList ThreadId) :=
  match s.keepsRunning core with
  | some thread => ThreadQueueList.popFirstBetter numQueues (s.currentPriority thread)
  | none => ThreadQueueList.popFirst numQueues

/-- One round of `PopNextReadyThread`, before the time limit. -/
def selectThread (s : Scheduler) (core : Nat) : Except KernelFault (Option ThreadId × Scheduler) := do
  let q := (s.managers core).readyQueue
  let (next, q, skipped) ← s.popSchedulable (s.popFor core) (q.size numQueues + 1) q []
  return (next.or (s.keepsRunning core), s.modifyQueue core fun _ => pushSkipped q skipped)

def popNextReadyThread (core : Nat) : Nat → Scheduler → Except KernelFault (Option ThreadId × Scheduler)
  | 0, _ => .error .outOfFuel
  | n + 1, s => do
    let (next, s) ← s.selectThread core
    match next with
    | none => return (none, s)
    | some t =>
      if core = 1 ∧ s.timeLimited t then popNextReadyThread core n (s.putToSleep t)
      else return (some t, s)

/-- What `SwitchContext` does to the thread that was running. -/
def leaveThread (s : Scheduler) (core : Nat) : Scheduler :=
  match (s.managers core).currentThread with
  | none => s
  | some t =>
    if s.status t = .running then
      (s.modifyQueue core fun q => q.pushFront (s.currentPriority t) t).setStatus t .ready
    else s

/-- What `SwitchContext` does to the thread that runs next. -/
def enterThread (s : Scheduler) (core : Nat) (t : ThreadId) : Scheduler :=
  if s.status t ≠ .running ∧ s.status t ≠ .ready then
    -- the status changed during scheduling: re-enqueueing
    s.modifyManager core fun m =>
      { m with readyQueue := m.readyQueue.pushBack (s.currentPriority t) t, warnings := m.warnings + 1 }
  else
    let s := s.unscheduleWakeup t
    let s := s.modifyManager core fun m =>
      { m with currentThread := some t, readyQueue := m.readyQueue.remove (s.currentPriority t) t }
    s.setStatus t .running

def switchContext (s : Scheduler) (core : Nat) (newThread : Option ThreadId) : Scheduler :=
  let s := s.leaveThread core
  match newThread with
  | some t => s.enterThread core t
  | none => s.modifyManager core fun m => { m with currentThread := none }

def reschedule (s : Scheduler) (core : Nat) : Except KernelFault Scheduler := do
  let cur := (s.managers core).currentThread
  let (next, s) ← popNextReadyThread core ((s.managers core).readyQueue.size numQueues + 2) s
  if cur.isNone ∧ next.isNone then return s
  else return s.switchContext core next

end Scheduler

end SweepDSEmu
