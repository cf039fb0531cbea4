import Mathlib.Data.List.MinMax
import SweepDSEmu.Kernel.Scheduler
import SweepDSEmu.Lib.Outcome

/-!
# Address arbiters

`address_arbiter.cpp`, and the parts of `thread.cpp` that change the status of a thread that may wait for an address:
the scheduler, sleeps, timeouts and the end of a thread.

* Arbiters, threads, cores and processes are named by numbers, and the members of `Thread` are functions from threads.
* The members that `Stop` changes for wait objects and mutexes are left out: no arbiter has them.
* `clock` and `waitingSince` say when a thread began to wait, and `readied` which threads have been put into a ready
  queue; the program does not read them.
-/

namespace SweepDSEmu

abbrev ArbiterId := Nat

abbrev ProcessId := Nat

inductive ArbitrationType where
  | signal
  | waitIfLessThan
  | decrementAndWaitIfLessThan
  | waitIfLessThanWithTimeout
  | decrementAndWaitIfLessThanWithTimeout
  | unknown
  deriving DecidableEq

/-- The results of `ArbitrateAddress`. -/
inductive ArbitrationResult where
  | success
  | timeout
  | invalidEnumValueFnd
  deriving DecidableEq

/-- Arbiters, the memory that they read, and the members of `Thread` and `ThreadManager` that they use. -/
structure ArbiterKernel where
  waitingThreads : ArbiterId → List ThreadId := fun _ => []
  status : ThreadId → ThreadStatus := fun _ => .dead
  currentPriority : ThreadId → Nat := fun _ => 0
  waitAddress : ThreadId → Nat := fun _ => 0
  /-- The arbiter whose timeout callback is the wakeup callback. -/
  wakeupCallback : ThreadId → Option ArbiterId := fun _ => none
  /-- Whether a wakeup event is scheduled. -/
  wakeupScheduled : ThreadId → Bool := fun _ => false
  ownerProcess : ThreadId → ProcessId := fun _ => 0
  threadList : Nat → List ThreadId := fun _ => []
  currentThread : Nat → Option ThreadId := fun _ => none
  nextThreadId : ThreadId := 0
  /-- The 32-bit values of the memory, as signed numbers. -/
  memory : Nat → Int := fun _ => 0
  addedTicks : Nat := 0
  clock : Nat := 0
  waitingSince : ThreadId → Nat := fun _ => 0
  readied : List ThreadId := []

namespace ArbiterKernel

def setStatus (s : ArbiterKernel) (t : ThreadId) (status : ThreadStatus) : ArbiterKernel :=
  { s with status := Function.update s.status t status }

def setWaitingThreads (s : ArbiterKernel) (a : ArbiterId) (threads : List ThreadId) : ArbiterKernel :=
  { s with waitingThreads := Function.update s.waitingThreads a threads }

def setWakeupScheduled (s : ArbiterKernel) (t : ThreadId) (scheduled : Bool) : ArbiterKernel :=
  { s with wakeupScheduled := Function.update s.wakeupScheduled t scheduled }

def setWakeupCallback (s : ArbiterKernel) (t : ThreadId) (callback : Option ArbiterId) : ArbiterKernel :=
  { s with wakeupCallback := Function.update s.wakeupCallback t callback }

def resumeFromWait (s : ArbiterKernel) (t : ThreadId) : Except KernelFault ArbiterKernel :=
  match s.status t with
  | .ready => if s.wakeupCallback t = none then .ok s else .error .callbackNotCleared
  | .running | .dead => .ok s
  | _ => .ok { (s.setWakeupCallback t none).setStatus t .ready with readied := s.readied ++ [t] }

def wakeAfterDelay (s : ArbiterKernel) (t : ThreadId) (nanoseconds : Int) : ArbiterKernel :=
  if nanoseconds = -1 then s else s.setWakeupScheduled t true

def stop (s : ArbiterKernel) (t : ThreadId) : ArbiterKernel := (s.setWakeupScheduled t false).setStatus t .dead

def exitCurrentThread (s : ArbiterKernel) (core : Nat) : ArbiterKernel :=
  match s.currentThread core with
  | none => s
  | some t => { s.stop t with threadList := Function.update s.threadList core ((s.threadList core).filter (· ≠ t)) }

/-- The threads that the loop of `TerminateProcessThreads` stops. -/
def terminated (s : ArbiterKernel) (core : Nat) (process : ProcessId) : List ThreadId :=
  (s.threadList core).filter fun t => s.currentThread core ≠ some t ∧ s.ownerProcess t = process

def terminateProcessThreads (s : ArbiterKernel) (core : Nat) (process : ProcessId) : ArbiterKernel :=
  let rest := (s.threadList core).filter fun t => ¬ (s.currentThread core ≠ some t ∧ s.ownerProcess t = process)
  let s := (s.terminated core process).foldl stop s
  let s := { s with threadList := Function.update s.threadList core rest }
  match s.currentThread core with
  | none => s
  | some t => if s.ownerProcess t = process then s.exitCurrentThread core else s

def createThread (s : ArbiterKernel) (core : Nat) (process : ProcessId) (priority : Nat) : ArbiterKernel :=
  let t := s.nextThreadId
  { s.setStatus t .ready with
    currentPriority := Function.update s.currentPriority t priority
    ownerProcess := Function.update s.ownerProcess t process
    threadList := Function.update s.threadList core (s.threadList core ++ [t])
    nextThreadId := t + 1
    readied := s.readied ++ [t] }

/-- The part of `SwitchContext` for the thread that has run. -/
def leaveContext (s : ArbiterKernel) (core : Nat) : ArbiterKernel :=
  match s.currentThread core with
  | none => s
  | some t => if s.status t = .running then s.setStatus t .ready else s

def switchContext (s : ArbiterKernel) (core : Nat) (newThread : Option ThreadId) : ArbiterKernel :=
  let s := s.leaveContext core
  match newThread with
  | none => { s with currentThread := Function.update s.currentThread core none }
  | some t =>
    if s.status t ≠ .running ∧ s.status t ≠ .ready then s
    else { (s.setWakeupScheduled t false).setStatus t .running with
      currentThread := Function.update s.currentThread core (some t) }

def sleepThread (s : ArbiterKernel) (t : ThreadId) (nanoseconds : Int) : ArbiterKernel :=
  (s.setStatus t .waitSleep).wakeAfterDelay t nanoseconds

def waitThread (s : ArbiterKernel) (a : ArbiterId) (t : ThreadId) (waitAddress : Nat) : ArbiterKernel :=
  { (s.setStatus t .waitArb).setWaitingThreads a (s.waitingThreads a ++ [t]) with
    waitAddress := Function.update s.waitAddress t waitAddress
    waitingSince := Function.update s.waitingSince t s.clock
    clock := s.clock + 1 }

def partitionThreads (s : ArbiterKernel) (a : ArbiterId) (address : Nat) :
    Except KernelFault (List ThreadId × List ThreadId) :=
  if ∀ t ∈ s.waitingThreads a, s.status t = .waitArb then
    .ok ((s.waitingThreads a).filter (s.waitAddress · ≠ address),
      (s.waitingThreads a).filter (s.waitAddress · = address))
  else .error .inconsistentArbiter

def resumeAllThreads (s : ArbiterKernel) (a : ArbiterId) (address : Nat) :
    Except KernelFault (Nat × ArbiterKernel) := do
  let (others, found) ← s.partitionThreads a address
  let s ← found.foldlM resumeFromWait s
  return (found.length, s.setWaitingThreads a others)

/-- `ResumeHighestPriorityThread`; `min_element` gives the first of the best ones. -/
def resumeHighestPriorityThread (s : ArbiterKernel) (a : ArbiterId) (address : Nat) :
    Except KernelFault (Bool × ArbiterKernel) := do
  let (others, found) ← s.partitionThreads a address
  match found.argmin s.currentPriority with
  | none => return (false, s.setWaitingThreads a (others ++ found))
  | some t => do
    let s ← s.resumeFromWait t
    return (true, s.setWaitingThreads a (others ++ found.erase t))

def resumeThreads (a : ArbiterId) (address : Nat) : Nat → ArbiterKernel → Except KernelFault (Nat × ArbiterKernel)
  | 0, s => .ok (0, s)
  | n + 1, s => do
    let (found, s) ← s.resumeHighestPriorityThread a address
    let (numThreads, s) ← resumeThreads a address n s
    return (found.toNat + numThreads, s)

def signal (s : ArbiterKernel) (a : ArbiterId) (t : ThreadId) (address : Nat) (value : Int) :
    Except KernelFault ArbiterKernel := do
  let (numThreads, s) ← if value < 0 then s.resumeAllThreads a address else resumeThreads a address value.toNat s
  -- The ticks keep threads of low priority from spinning.
  if numThreads = 0 ∧ s.currentPriority t ≥ 49 then return { s with addedTicks := s.addedTicks + 1614 } else return s

def toS32 (n : Int) : Int := (n + 2 ^ 31) % 2 ^ 32 - 2 ^ 31

def waitIfLessThan (s : ArbiterKernel) (a : ArbiterId) (t : ThreadId) (address : Nat) (value nanoseconds : Int)
    (decrement timeout : Bool) : ArbiterKernel :=
  let memoryValue := s.memory address
  if memoryValue < value then
    let s := if decrement then { s with memory := Function.update s.memory address (toS32 (memoryValue - 1)) } else s
    let s := if timeout then (s.setWakeupCallback t (some a)).wakeAfterDelay t nanoseconds else s
    s.waitThread a t address
  else s

def arbitrateAddress (s : ArbiterKernel) (a : ArbiterId) (t : ThreadId) (type : ArbitrationType) (address : Nat)
    (value nanoseconds : Int) : Except KernelFault (ArbitrationResult × ArbiterKernel) :=
  match type with
  | .signal => do
    let s ← s.signal a t address value
    return (.success, s)
  | .waitIfLessThan => .ok (.success, s.waitIfLessThan a t address value nanoseconds false false)
  | .waitIfLessThanWithTimeout => .ok (.timeout, s.waitIfLessThan a t address value nanoseconds false true)
  | .decrementAndWaitIfLessThan => .ok (.success, s.waitIfLessThan a t address value nanoseconds true false)
  | .decrementAndWaitIfLessThanWithTimeout => .ok (.timeout, s.waitIfLessThan a t address value nanoseconds true true)
  | .unknown => .ok (.invalidEnumValueFnd, s)

def wakeUp (s : ArbiterKernel) (a : ArbiterId) (t : ThreadId) : ArbiterKernel :=
  s.setWaitingThreads a ((s.waitingThreads a).filter (· ≠ t))

def threadWakeupCallback (s : ArbiterKernel) (t : ThreadId) : Except KernelFault ArbiterKernel :=
  let s := s.setWakeupScheduled t false
  match s.status t, s.wakeupCallback t with
  | .waitArb, some a => (s.wakeUp a t).resumeFromWait t
  | _, _ => s.resumeFromWait t

inductive Op where
  | createThread (core : Nat) (process : ProcessId) (priority : Nat)
  | switchContext (core : Nat) (newThread : Option ThreadId)
  | setPriority (t : ThreadId) (priority : Nat)
  | sleepThread (core : Nat) (nanoseconds : Int)
  | arbitrateAddress (core : Nat) (a : ArbiterId) (type : ArbitrationType) (address : Nat) (value nanoseconds : Int)
  | timeout (t : ThreadId)
  | stop (t : ThreadId)
  | exitCurrentThread (core : Nat)
  | terminateProcessThreads (core : Nat) (process : ProcessId)

def caller (s : ArbiterKernel) (core : Nat) : Option ThreadId :=
  (s.currentThread core).filter fun t => s.status t = .running

def exec (s : ArbiterKernel) : Op → Except KernelFault ArbiterKernel
  | .createThread core process priority => .ok (s.createThread core process priority)
  | .switchContext core newThread => .ok (s.switchContext core newThread)
  | .setPriority t priority => .ok { s with currentPriority := Function.update s.currentPriority t priority }
  | .sleepThread core nanoseconds =>
    match s.caller core with
    | none => .ok s
    | some t => .ok (s.sleepThread t nanoseconds)
  | .arbitrateAddress core a type address value nanoseconds =>
    match s.caller core with
    | none => .ok s
    | some t => do
      let (_, s) ← s.arbitrateAddress a t type address value nanoseconds
      return s
  | .timeout t => if s.wakeupScheduled t then s.threadWakeupCallback t else .ok s
  | .stop t => .ok (s.stop t)
  | .exitCurrentThread core => .ok (s.exitCurrentThread core)
  | .terminateProcessThreads core process => .ok (s.terminateProcessThreads core process)

def run (ops : List Op) : Except KernelFault ArbiterKernel := ops.foldlM exec {}

end ArbiterKernel

end SweepDSEmu
