import SweepDSEmu.Kernel.Scheduler
import SweepDSEmu.Lib.Outcome

/-!
# Wait objects

`wait_object.cpp` and the objects that threads wait for: events, timers, semaphores, mutexes, server sessions, server ports
and threads.

* An object is named by its id, and a handle table is a function from handles to ids: several handles may name the same
  object.
* The links between threads and objects are kept in both directions, `waitingThreads` and `waitObjects`.
* A failed assertion is a fault.  The loop of `WakeupAllWaitingThreads` has a bound.
-/

namespace SweepDSEmu

abbrev ObjectId := Nat

inductive ResetType where
  | oneShot
  | sticky
  | pulse
  deriving DecidableEq

/-- The classes derived from `WaitObject`, with the members that their operations use. -/
inductive WaitObject where
  | event (signaled : Bool) (resetType : ResetType)
  | timer (signaled : Bool) (resetType : ResetType)
  | semaphore (availableCount maxCount : Int)
  | mutex (lockCount : Int) (priority : Nat) (holdingThread : Option ThreadId)
  /-- `client` says that the client end has not been closed. -/
  | serverSession (client : Bool) (pendingRequestingThreads : List ThreadId) (currentlyHandling : Option ThreadId)
  | serverPort (pendingSessions : Nat)
  | thread (t : ThreadId)
  deriving DecidableEq

inductive WakeupCallback where
  /-- `SVC_SyncCallback`. -/
  | sync (doOutput : Bool)
  /-- `SVC_IPCCallback`. -/
  | ipc
  /-- `ThreadCallback` of a service. -/
  | hle
  deriving DecidableEq

/-- Wait objects and the members of `Thread` that waits use. -/
structure WaitKernel where
  object : ObjectId → WaitObject := fun _ => .event false .oneShot
  waitingThreads : ObjectId → List ThreadId := fun _ => []
  status : ThreadId → ThreadStatus := fun _ => .dead
  currentPriority : ThreadId → Nat := fun _ => 0
  nominalPriority : ThreadId → Nat := fun _ => 0
  waitObjects : ThreadId → List ObjectId := fun _ => []
  heldMutexes : ThreadId → List ObjectId := fun _ => []
  pendingMutexes : ThreadId → List ObjectId := fun _ => []
  wakeupCallback : ThreadId → Option WakeupCallback := fun _ => none
  nextObjectId : ObjectId := 0
  nextThreadId : ThreadId := 0

namespace WaitKernel

def setObject (s : WaitKernel) (o : ObjectId) (object : WaitObject) : WaitKernel :=
  { s with object := Function.update s.object o object }

def setStatus (s : WaitKernel) (t : ThreadId) (status : ThreadStatus) : WaitKernel :=
  { s with status := Function.update s.status t status }

def shouldWait (s : WaitKernel) (o : ObjectId) (t : ThreadId) : Bool :=
  match s.object o with
  | .event signaled _ => !signaled
  | .timer signaled _ => !signaled
  | .semaphore availableCount _ => decide (availableCount ≤ 0)
  | .mutex lockCount _ holdingThread => decide (lockCount > 0) && decide (holdingThread ≠ some t)
  | .serverSession client pending currentlyHandling => client && (pending.isEmpty || currentlyHandling.isSome)
  | .serverPort pendingSessions => pendingSessions == 0
  | .thread u => s.status u != .dead

def mutexPriority (s : WaitKernel) (o : ObjectId) : Nat :=
  match s.object o with
  | .mutex _ priority _ => priority
  | _ => threadPrioLowest

def updatePriority (s : WaitKernel) (t : ThreadId) : WaitKernel :=
  { s with
    currentPriority := Function.update s.currentPriority t
      (((s.heldMutexes t).map s.mutexPriority).foldl min (s.nominalPriority t)) }

def acquire (s : WaitKernel) (o : ObjectId) (t : ThreadId) : Except KernelFault WaitKernel :=
  match s.object o with
  | .event _ resetType =>
    if s.shouldWait o t then .error .objectUnavailable
    else .ok (if resetType = .oneShot then s.setObject o (.event false resetType) else s)
  | .timer _ resetType =>
    if s.shouldWait o t then .error .objectUnavailable
    else .ok (if resetType = .oneShot then s.setObject o (.timer false resetType) else s)
  | .semaphore availableCount maxCount =>
    .ok (if availableCount ≤ 0 then s else s.setObject o (.semaphore (availableCount - 1) maxCount))
  | .mutex lockCount priority holdingThread =>
    if s.shouldWait o t then .error .objectUnavailable
    else if lockCount = 0 then
      let s := s.setObject o (.mutex (lockCount + 1) (s.currentPriority t) (some t))
      .ok ({ s with heldMutexes := Function.update s.heldMutexes t ((s.heldMutexes t).insert o) }.updatePriority t)
    else .ok (s.setObject o (.mutex (lockCount + 1) priority holdingThread))
  | .serverSession client pending _ =>
    if s.shouldWait o t then .error .objectUnavailable
    else if !client then .ok s
    else
      match pending.getLast? with
      | none => .error .badPointer
      | some request => .ok (s.setObject o (.serverSession client pending.dropLast (some request)))
  | .serverPort _ => if s.shouldWait o t then .error .objectUnavailable else .ok s
  | .thread _ => if s.shouldWait o t then .error .objectUnavailable else .ok s

def acquireAll (s : WaitKernel) (t : ThreadId) (objects : List ObjectId) : Except KernelFault WaitKernel :=
  objects.foldlM (fun s o => s.acquire o t) s

/-- `Mutex::UpdatePriority`; other objects have no priority. -/
def updateMutexPriority (s : WaitKernel) (o : ObjectId) : WaitKernel :=
  match s.object o with
  | .mutex lockCount priority (some holder) =>
    let best := ((s.waitingThreads o).map s.currentPriority).foldl min threadPrioLowest
    if best ≠ priority then (s.setObject o (.mutex lockCount best (some holder))).updatePriority holder else s
  | _ => s

/-- An object that inherits the priorities of the threads that wait for it. -/
def isMutex (s : WaitKernel) (o : ObjectId) : Bool :=
  match s.object o with
  | .mutex .. => true
  | _ => false

def addWaitingThread (s : WaitKernel) (o : ObjectId) (t : ThreadId) : WaitKernel :=
  let threads := if t ∈ s.waitingThreads o then s.waitingThreads o else s.waitingThreads o ++ [t]
  let s := { s with waitingThreads := Function.update s.waitingThreads o threads }
  if s.isMutex o then
    { s with pendingMutexes := Function.update s.pendingMutexes t ((s.pendingMutexes t).insert o) }.updateMutexPriority o
  else s

def removeWaitingThread (s : WaitKernel) (o : ObjectId) (t : ThreadId) : WaitKernel :=
  let s := { s with waitingThreads := Function.update s.waitingThreads o ((s.waitingThreads o).erase t) }
  if s.isMutex o then
    { s with pendingMutexes := Function.update s.pendingMutexes t ((s.pendingMutexes t).erase o) }.updateMutexPriority o
  else s

/-- The loop of `GetHighestPriorityReadyThread`, with the candidate so far. -/
def searchReady (s : WaitKernel) (o : ObjectId) : Option ThreadId → List ThreadId → Except KernelFault (Option ThreadId)
  | candidate, [] => .ok candidate
  | candidate, t :: threads =>
    if s.status t ≠ .waitSynchAny ∧ s.status t ≠ .waitSynchAll ∧ s.status t ≠ .waitHleEvent then
      .error .inconsistentStatuses
    else if (candidate.map s.currentPriority).getD (threadPrioLowest + 1) ≤ s.currentPriority t then
      s.searchReady o candidate threads
    else if s.shouldWait o t then s.searchReady o candidate threads
    else if s.status t = .waitSynchAll ∧ (s.waitObjects t).any fun o => s.shouldWait o t then
      s.searchReady o candidate threads
    else s.searchReady o (some t) threads

def getHighestPriorityReadyThread (s : WaitKernel) (o : ObjectId) : Except KernelFault (Option ThreadId) :=
  s.searchReady o none (s.waitingThreads o)

def waitObjectIndex (s : WaitKernel) (t : ThreadId) : Except KernelFault Unit :=
  if s.waitObjects t = [] then .error .notWaiting else .ok ()

def receiveIPCRequest (s : WaitKernel) (o : ObjectId) : Except KernelFault Unit :=
  match s.object o with
  | .serverSession true _ none => .error .badPointer
  | _ => .ok ()

def wakeUp (s : WaitKernel) (t : ThreadId) (o : ObjectId) : Except KernelFault Unit :=
  match s.wakeupCallback t with
  | none => .ok ()
  | some (.sync false) => .ok ()
  | some (.sync true) => s.waitObjectIndex t
  | some .ipc => do
    if s.status t ≠ .waitSynchAny then .error .callback
    s.receiveIPCRequest o
    s.waitObjectIndex t
  | some .hle => if s.status t ≠ .waitHleEvent then .error .callback else .ok ()

def resumeFromWait (s : WaitKernel) (t : ThreadId) : Except KernelFault WaitKernel :=
  if s.waitObjects t ≠ [] then .error .wakingUpWhileWaiting
  else
    match s.status t with
    | .waitSynchAll | .waitSynchAny | .waitHleEvent | .waitArb | .waitSleep | .waitIPC | .dormant =>
      .ok { s.setStatus t .ready with wakeupCallback := Function.update s.wakeupCallback t none }
    | .ready => if s.wakeupCallback t = none then .ok s else .error .callbackNotCleared
    | .running | .dead => .ok s

def leaveWaitObjects (s : WaitKernel) (t : ThreadId) : WaitKernel :=
  let s := (s.waitObjects t).foldl (fun s o => s.removeWaitingThread o t) s
  { s with waitObjects := Function.update s.waitObjects t [] }

/-- One turn of the loop of `WakeupAllWaitingThreads`, for the thread that was found. -/
def wakeupThread (s : WaitKernel) (o : ObjectId) (t : ThreadId) : Except KernelFault WaitKernel := do
  let s ← if s.status t ≠ .waitSynchAll then s.acquire o t else s.acquireAll t (s.waitObjects t)
  s.wakeUp t o
  (s.leaveWaitObjects t).resumeFromWait t

def wakeupLoop (o : ObjectId) : Nat → WaitKernel → Except KernelFault WaitKernel
  | 0, _ => .error .outOfFuel
  | n + 1, s => do
    match ← s.getHighestPriorityReadyThread o with
    | none => return s
    | some t => wakeupLoop o n (← s.wakeupThread o t)

def wakeupAllWaitingThreads (s : WaitKernel) (o : ObjectId) : Except KernelFault WaitKernel := do
  let s ← wakeupLoop o ((s.waitingThreads o).length + 1) s
  match s.object o with
  | .event _ .pulse => return s.setObject o (.event false .pulse)
  | _ => return s

/-- The results of `WaitSynchronizationN`. -/
inductive WaitResult where
  | success
  | timeout
  | invalidHandle
  deriving DecidableEq

def suspend (s : WaitKernel) (t : ThreadId) (objects : List ObjectId) (status : ThreadStatus)
    (callback : WakeupCallback) : WaitKernel :=
  let s := objects.foldl (fun s o => s.addWaitingThread o t) (s.setStatus t status)
  { s with
    waitObjects := Function.update s.waitObjects t objects
    wakeupCallback := Function.update s.wakeupCallback t (some callback) }

/-- `WaitSynchronizationN` with `wait_all`, for the objects of the handles. -/
def waitAllObjects (s : WaitKernel) (t : ThreadId) (objects : List ObjectId) (nanoseconds : Int) :
    Except KernelFault (WaitResult × WaitKernel) :=
  if objects.all fun o => !s.shouldWait o t then do
    let s ← s.acquireAll t objects
    return (.success, s)
  else if nanoseconds = 0 then .ok (.timeout, s)
  else .ok (.timeout, s.suspend t objects .waitSynchAll (.sync false))

def waitSynchronizationAll (s : WaitKernel) (handleTable : Nat → Option ObjectId) (t : ThreadId) (handles : List Nat)
    (nanoseconds : Int) : Except KernelFault (WaitResult × WaitKernel) :=
  match handles.mapM handleTable with
  | none => .ok (.invalidHandle, s)
  | some objects => s.waitAllObjects t objects nanoseconds

end WaitKernel

end SweepDSEmu
