import SweepDSEmu.Kernel.WaitObject

/-!
# The operations on wait objects

The system calls and events that change what threads wait for: waits, IPC, signals, releases, priorities, the end of a
thread, and timeouts.

* A system call is made by a thread that runs; an operation whose thread does not run changes nothing.
* The status of a thread that does not wait for an object changes by the scheduler, by sleeps and by address arbiters.
* The translation of command buffers succeeds; where it fails the source aborts.
-/

namespace SweepDSEmu.WaitKernel

def waitSynchronization1 (s : WaitKernel) (t : ThreadId) (o : ObjectId) (nanoseconds : Int) :
    Except KernelFault WaitKernel :=
  if s.shouldWait o t then
    if nanoseconds = 0 then .ok s else .ok (s.suspend t [o] .waitSynchAny (.sync false))
  else s.acquire o t

/-- `WaitSynchronizationN` without `wait_all`. -/
def waitSynchronizationAny (s : WaitKernel) (t : ThreadId) (objects : List ObjectId) (nanoseconds : Int) :
    Except KernelFault WaitKernel :=
  match objects.find? fun o => !s.shouldWait o t with
  | some o => s.acquire o t
  | none => if nanoseconds = 0 then .ok s else .ok (s.suspend t objects .waitSynchAny (.sync true))

/-- The reply of `ReplyAndReceive`, and whether it was sent. -/
def reply (s : WaitKernel) (o : ObjectId) : Except KernelFault (Bool × WaitKernel) :=
  match s.object o with
  | .serverSession client pending currentlyHandling =>
    let s := s.setObject o (.serverSession client pending none)
    match currentlyHandling with
    | none => .ok (false, s)
    | some request =>
      if client then do
        let s ← s.resumeFromWait request
        return (true, s)
      else .ok (false, s)
  | _ => .ok (false, s)

/-- The part of `ReplyAndReceive` after the reply. -/
def receive (s : WaitKernel) (t : ThreadId) (objects : List ObjectId) : Except KernelFault WaitKernel :=
  if objects = [] then .ok s
  else
    match objects.find? fun o => !s.shouldWait o t with
    | some o => do
      let s ← s.acquire o t
      s.receiveIPCRequest o
      return s
    | none => .ok (s.suspend t objects .waitSynchAny .ipc)

def replyAndReceive (s : WaitKernel) (t : ThreadId) (objects : List ObjectId) (replyTarget : Option ObjectId) :
    Except KernelFault WaitKernel :=
  match replyTarget with
  | none => s.receive t objects
  | some o => do
    let (sent, s) ← s.reply o
    if sent then s.receive t objects else return s

/-- Who handles a request: another process, a service at once, or a service that puts the thread to sleep. -/
inductive Handling where
  | lle
  | hle
  | hleSleep
  deriving DecidableEq

def createObject (s : WaitKernel) (object : WaitObject) : WaitKernel :=
  { s.setObject s.nextObjectId object with nextObjectId := s.nextObjectId + 1 }

def sleepClientThread (s : WaitKernel) (t : ThreadId) : WaitKernel :=
  (s.createObject (.event false .oneShot)).suspend t [s.nextObjectId] .waitHleEvent .hle

def handleSyncRequest (s : WaitKernel) (t : ThreadId) (o : ObjectId) (handling : Handling) :
    Except KernelFault WaitKernel :=
  match s.object o with
  | .serverSession true pending currentlyHandling =>
    let s :=
      match handling with
      | .lle => (s.setStatus t .waitIPC).setObject o (.serverSession true (pending ++ [t]) currentlyHandling)
      | .hle => s.setStatus t .waitIPC
      | .hleSleep => s.sleepClientThread t
    s.wakeupAllWaitingThreads o
  | _ => .ok s

def closeClient (s : WaitKernel) (o : ObjectId) : Except KernelFault WaitKernel :=
  match s.object o with
  | .serverSession true _ _ => (s.setObject o (.serverSession false [] none)).wakeupAllWaitingThreads o
  | _ => .ok s

def connect (s : WaitKernel) (o : ObjectId) : Except KernelFault WaitKernel :=
  match s.object o with
  | .serverPort pendingSessions => (s.setObject o (.serverPort (pendingSessions + 1))).wakeupAllWaitingThreads o
  | _ => .ok s

def accept (s : WaitKernel) (o : ObjectId) : WaitKernel :=
  match s.object o with
  | .serverPort pendingSessions => s.setObject o (.serverPort (pendingSessions - 1))
  | _ => s

def signal (s : WaitKernel) (o : ObjectId) : Except KernelFault WaitKernel :=
  match s.object o with
  | .event _ resetType => (s.setObject o (.event true resetType)).wakeupAllWaitingThreads o
  | .timer _ resetType => (s.setObject o (.timer true resetType)).wakeupAllWaitingThreads o
  | _ => .ok s

def clear (s : WaitKernel) (o : ObjectId) : WaitKernel :=
  match s.object o with
  | .event _ resetType => s.setObject o (.event false resetType)
  | .timer _ resetType => s.setObject o (.timer false resetType)
  | _ => s

def releaseSemaphore (s : WaitKernel) (o : ObjectId) (releaseCount : Int) : Except KernelFault WaitKernel :=
  match s.object o with
  | .semaphore availableCount maxCount =>
    if releaseCount + availableCount ≤ maxCount then
      (s.setObject o (.semaphore (availableCount + releaseCount) maxCount)).wakeupAllWaitingThreads o
    else .ok s
  | _ => .ok s

def releaseMutex (s : WaitKernel) (t : ThreadId) (o : ObjectId) : Except KernelFault WaitKernel :=
  match s.object o with
  | .mutex lockCount priority (some holder) =>
    if holder ≠ t ∨ lockCount ≤ 0 then .ok s
    else if lockCount - 1 = 0 then
      let s := { s with heldMutexes := Function.update s.heldMutexes t ((s.heldMutexes t).erase o) }
      let s := (s.setObject o (.mutex 0 priority (some t))).updatePriority t
      (s.setObject o (.mutex 0 priority none)).wakeupAllWaitingThreads o
    else .ok (s.setObject o (.mutex (lockCount - 1) priority (some holder)))
  | _ => .ok s

/-- One turn of the loop of `ReleaseThreadMutexes`. -/
def releaseThreadMutex (s : WaitKernel) (o : ObjectId) : Except KernelFault WaitKernel :=
  match s.object o with
  | .mutex _ priority _ => (s.setObject o (.mutex 0 priority none)).wakeupAllWaitingThreads o
  | _ => .ok s

def releaseThreadMutexes (s : WaitKernel) (t : ThreadId) : Except KernelFault WaitKernel := do
  let s ← (s.heldMutexes t).foldlM releaseThreadMutex s
  return { s with heldMutexes := Function.update s.heldMutexes t [] }

def stop (s : WaitKernel) (o : ObjectId) : Except KernelFault WaitKernel :=
  match s.object o with
  | .thread t => do
    let s ← (s.setStatus t .dead).wakeupAllWaitingThreads o
    (s.leaveWaitObjects t).releaseThreadMutexes t
  | _ => .ok s

def wakeUpTimeout (s : WaitKernel) (t : ThreadId) : Except KernelFault Unit :=
  match s.wakeupCallback t with
  | none => .ok ()
  | some (.sync _) => .ok ()
  | some .ipc => .error .callback
  | some .hle => if s.status t ≠ .waitHleEvent then .error .callback else .ok ()

def threadWakeupCallback (s : WaitKernel) (t : ThreadId) : Except KernelFault WaitKernel :=
  match s.status t with
  | .waitSynchAny | .waitSynchAll | .waitArb | .waitHleEvent => do
    s.wakeUpTimeout t
    (s.leaveWaitObjects t).resumeFromWait t
  | _ => s.resumeFromWait t

def setThreadPriority (s : WaitKernel) (t : ThreadId) (priority : Nat) : WaitKernel :=
  let s := { s with
    nominalPriority := Function.update s.nominalPriority t priority
    currentPriority := Function.update s.currentPriority t priority }
  let s := s.updatePriority t
  (s.pendingMutexes t).foldl updateMutexPriority s

def createThread (s : WaitKernel) (priority : Nat) : WaitKernel :=
  let t := s.nextThreadId
  let s := s.createObject (.thread t)
  { s.setStatus t .ready with
    nominalPriority := Function.update s.nominalPriority t priority
    currentPriority := Function.update s.currentPriority t priority
    nextThreadId := t + 1 }

def createMutex (s : WaitKernel) (t : ThreadId) (initialLocked : Bool) : Except KernelFault WaitKernel :=
  let o := s.nextObjectId
  let s := s.createObject (.mutex 0 threadPrioLowest none)
  if initialLocked then s.acquire o t else .ok s

/-- The changes of a status that no object takes part in: by the scheduler, by sleeps and by address arbiters. -/
def statusChanges : List (ThreadStatus × ThreadStatus) :=
  [(.ready, .running), (.running, .ready), (.running, .waitSleep), (.ready, .waitSleep), (.running, .waitArb)]

def changeStatus (s : WaitKernel) (t : ThreadId) (status : ThreadStatus) : WaitKernel :=
  if (s.status t, status) ∈ statusChanges then s.setStatus t status else s

def resume (s : WaitKernel) (t : ThreadId) : Except KernelFault WaitKernel :=
  if s.status t = .waitSleep ∨ s.status t = .waitArb then s.resumeFromWait t else .ok s

inductive Op where
  | createObject (object : WaitObject)
  | createMutex (t : ThreadId) (initialLocked : Bool)
  | createThread (priority : Nat)
  | waitSynchronization1 (t : ThreadId) (o : ObjectId) (nanoseconds : Int)
  | waitSynchronizationN (t : ThreadId) (objects : List ObjectId) (waitAll : Bool) (nanoseconds : Int)
  | replyAndReceive (t : ThreadId) (objects : List ObjectId) (replyTarget : Option ObjectId)
  | sendSyncRequest (t : ThreadId) (o : ObjectId) (handling : Handling)
  | closeClient (o : ObjectId)
  | connect (o : ObjectId)
  | accept (o : ObjectId)
  | signal (o : ObjectId)
  | clear (o : ObjectId)
  | releaseSemaphore (o : ObjectId) (releaseCount : Int)
  | releaseMutex (t : ThreadId) (o : ObjectId)
  | stop (o : ObjectId)
  | timeout (t : ThreadId)
  | setThreadPriority (t : ThreadId) (priority : Nat)
  | changeStatus (t : ThreadId) (status : ThreadStatus)
  | resume (t : ThreadId)

/-- A new object that is neither a thread nor a mutex, and that nobody uses yet. -/
def isFresh : WaitObject → Bool
  | .serverSession _ pending currentlyHandling => pending.isEmpty && currentlyHandling.isNone
  | .mutex .. | .thread _ => false
  | _ => true

def calls (s : WaitKernel) (t : ThreadId) (objects : List ObjectId) : Bool :=
  decide (s.status t = .running) && objects.all fun o => o < s.nextObjectId

def exec (s : WaitKernel) : Op → Except KernelFault WaitKernel
  | .createObject object => .ok (if isFresh object then s.createObject object else s)
  | .createMutex t initialLocked => if s.calls t [] then s.createMutex t initialLocked else .ok s
  | .createThread priority => .ok (if priority ≤ threadPrioLowest then s.createThread priority else s)
  | .waitSynchronization1 t o nanoseconds =>
    if s.calls t [o] then s.waitSynchronization1 t o nanoseconds else .ok s
  | .waitSynchronizationN t objects waitAll nanoseconds =>
    if s.calls t objects then
      if waitAll then do
        let (_, s) ← s.waitAllObjects t objects nanoseconds
        return s
      else s.waitSynchronizationAny t objects nanoseconds
    else .ok s
  | .replyAndReceive t objects replyTarget =>
    if s.calls t objects then s.replyAndReceive t objects replyTarget else .ok s
  | .sendSyncRequest t o handling => if s.calls t [o] then s.handleSyncRequest t o handling else .ok s
  | .closeClient o => s.closeClient o
  | .connect o => s.connect o
  | .accept o => .ok (s.accept o)
  | .signal o => s.signal o
  | .clear o => .ok (s.clear o)
  | .releaseSemaphore o releaseCount => s.releaseSemaphore o releaseCount
  | .releaseMutex t o => if s.calls t [o] then s.releaseMutex t o else .ok s
  | .stop o => s.stop o
  | .timeout t => s.threadWakeupCallback t
  | .setThreadPriority t priority => .ok (if priority ≤ threadPrioLowest then s.setThreadPriority t priority else s)
  | .changeStatus t status => .ok (s.changeStatus t status)
  | .resume t => s.resume t

/-- The operations one after the other, from a state without threads. -/
def run (ops : List Op) : Except KernelFault WaitKernel := ops.foldlM exec {}

end SweepDSEmu.WaitKernel
