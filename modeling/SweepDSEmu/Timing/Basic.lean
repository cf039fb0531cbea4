import Mathlib.Algebra.GroupWithZero.Nat
import Mathlib.Data.List.Sort
import Mathlib.Algebra.Group.Int.Defs

/-!
# Core timing

The event queues of `core_timing.cpp`.  Every core has a timer with two queues: `eventQueue`, a binary heap ordered
by time and then by `fifoOrder`, and `tsQueue`, which receives the events scheduled from another core or another
host thread and is drained by `MoveEvents` at the start of `Advance`.

* The heap is kept as the list of its events in the order in which `pop_heap` delivers them; `fifoOrder` is unique
  within a queue, so this order is the only one.
* Ticks are integers: the source bounds the base tick count "to make sure we don't generate too high of a counter
  and risk overflowing".  The conversion of the lateness to `int` is kept.
* An event carries `serial`, the number of the `ScheduleEvent` call that made it.  No function reads it; the
  statements about runs use it to name an event.
-/

namespace SweepDSEmu

def toInt32 (n : Int) : Int := (n + 2 ^ 31) % 2 ^ 32 - 2 ^ 31

theorem toInt32_le {n : Int} (h : 0 ≤ n) : toInt32 n ≤ n := by
  unfold toInt32; omega

theorem toInt32_of_small {n : Int} (h : 0 ≤ n) (h' : n < 2 ^ 31) : toInt32 n = n := by
  unfold toInt32; omega

namespace Timing

structure Event where
  time : Int
  fifoOrder : Nat
  userData : Nat
  type : Nat
  serial : Nat
  deriving DecidableEq

/-- The event `a` is not delivered after `b`: `operator<=` on `(time, fifo_order)`. -/
def Event.le (a b : Event) : Prop := a.time < b.time ∨ (a.time = b.time ∧ a.fifoOrder ≤ b.fifoOrder)

instance : DecidableRel Event.le := fun _ _ => inferInstanceAs (Decidable (_ ∨ (_ ∧ _)))

instance : Std.Total Event.le := ⟨fun a b => by unfold Event.le; omega⟩

instance : IsTrans Event Event.le := ⟨fun a b c h1 h2 => by unfold Event.le at *; omega⟩

def maxSliceLength : Int := 268111856 / 234

/-- `Timing::Timer`, one for every core. -/
structure Timer where
  eventQueue : List Event := []
  eventFifoId : Nat := 0
  tsQueue : List Event := []
  isTimerSane : Bool := true
  sliceLength : Int := maxSliceLength
  downcount : Int := maxSliceLength
  executedTicks : Int := 0
  idledCycles : Int := 0

namespace Timer

def pushHeap (queue : List Event) (e : Event) : List Event := queue.orderedInsert Event.le e

def getTicks (t : Timer) : Int :=
  t.executedTicks + if t.isTimerSane then 0 else t.sliceLength - t.downcount

def forceExceptionCheck (t : Timer) (cycles : Int) : Timer :=
  let cycles := max 0 cycles
  if t.downcount > cycles then
    { t with sliceLength := t.sliceLength - (t.downcount - cycles), downcount := cycles }
  else t

def moveEvent (t : Timer) (ev : Event) : Timer :=
  { t with
    eventFifoId := t.eventFifoId + 1
    eventQueue := pushHeap t.eventQueue { ev with fifoOrder := t.eventFifoId } }

def moveEvents (t : Timer) : Timer := { t.tsQueue.foldl moveEvent t with tsQueue := [] }

def beginAdvance (t : Timer) : Timer :=
  let t := t.moveEvents
  { t with
    idledCycles := 0
    executedTicks := t.executedTicks + (t.sliceLength - t.downcount)
    sliceLength := 0
    downcount := 0
    isTimerSane := true }

def addTicks (t : Timer) (ticks : Int) : Timer := { t with downcount := t.downcount - ticks }

def idle (t : Timer) : Timer := { t with idledCycles := t.idledCycles + t.downcount, downcount := 0 }

def setNextSlice (t : Timer) (maxSlice : Int) : Timer :=
  let slice := match t.eventQueue with
    | [] => maxSlice
    | e :: _ => toInt32 (min (e.time - t.executedTicks) maxSlice)
  { t with sliceLength := slice, downcount := slice }

end Timer

end Timing

open Timing in
structure Timing where
  numCores : Nat
  timers : Nat → Timer
  currentTimer : Nat := 0
  eventQueueLocked : Bool := false
  nextSerial : Nat := 0

namespace Timing

open Function

def init (numCores : Nat) (baseTicks : Int) : Timing where
  numCores := numCores
  timers := fun _ => { executedTicks := baseTicks }

def setTimer (t : Timing) (core : Nat) (timer : Timer) : Timing := { t with timers := update t.timers core timer }

/-- Pushes an event that the next `MoveEvents` of the core will take over. -/
def pushTs (t : Timing) (core : Nat) (time : Int) (userData type : Nat) : Timing :=
  let timer := t.timers core
  { t.setTimer core { timer with tsQueue := timer.tsQueue ++ [⟨time, 0, userData, type, t.nextSerial⟩] } with
    nextSerial := t.nextSerial + 1 }

/-- `ScheduleEvent`; `none` is the default core, the one of the current timer. -/
def scheduleEvent (t : Timing) (cyclesIntoFuture : Int) (type userData : Nat) (coreId : Option Nat)
    (threadSafeMode : Bool) : Timing :=
  if t.eventQueueLocked then t else
  let core := coreId.getD t.currentTimer
  let timer := t.timers core
  if threadSafeMode then
    t.pushTs core (timer.getTicks + max (maxSliceLength * 2) cyclesIntoFuture) userData type
  else
    let timeout := timer.getTicks + cyclesIntoFuture
    if t.currentTimer = core then
      -- an event before the end of the slice shortens the slice
      let timer := if timer.isTimerSane then timer else timer.forceExceptionCheck cyclesIntoFuture
      { t.setTimer core { timer with
          eventFifoId := timer.eventFifoId + 1
          eventQueue := Timer.pushHeap timer.eventQueue
            ⟨timeout, timer.eventFifoId, userData, type, t.nextSerial⟩ } with
        nextSerial := t.nextSerial + 1 }
    else
      t.pushTs core timeout userData type

/-- Erases the events that satisfy `p` from every heap; `ts_queue` is left as it is. -/
def eraseEvents (t : Timing) (p : Event → Bool) : Timing :=
  if t.eventQueueLocked then t else
  { t with timers := fun core =>
      { t.timers core with eventQueue := (t.timers core).eventQueue.filter fun e => !p e } }

def unscheduleEvent (t : Timing) (type userData : Nat) : Timing :=
  t.eraseEvents fun e => e.type == type && e.userData == userData

def removeEvent (t : Timing) (type : Nat) : Timing := t.eraseEvents fun e => e.type == type

def setCurrentTimer (t : Timing) (core : Nat) : Timing := { t with currentTimer := core }

/-- A call that a callback makes. -/
inductive Cmd where
  | schedule (cyclesIntoFuture : Int) (type userData : Nat) (coreId : Option Nat) (threadSafeMode : Bool)
  | unschedule (type userData : Nat)
  | remove (type : Nat)

def exec (t : Timing) : Cmd → Timing
  | .schedule cycles type userData coreId threadSafeMode =>
    t.scheduleEvent cycles type userData coreId threadSafeMode
  | .unschedule type userData => t.unscheduleEvent type userData
  | .remove type => t.removeEvent type

abbrev Callback := Timing → Event → Int → List Cmd

/-- The first event of the heap when it is due, with the heap that is left after popping it. -/
def Timer.popDue (timer : Timer) : Option (Event × Timer) :=
  match timer.eventQueue with
  | e :: rest => if e.time ≤ timer.executedTicks then some (e, { timer with eventQueue := rest }) else none
  | [] => none

/-- The lateness that `Advance` passes to the callback. -/
def Timer.cyclesLate (timer : Timer) (e : Event) : Int := toInt32 (timer.executedTicks - e.time)

/-- The event loop of `Advance`, for at most `fuel` events. -/
def advanceLoop (callback : Callback) (core : Nat) : Nat → Timing → Option Timing
  | 0, _ => none
  | fuel + 1, t =>
    match (t.timers core).popDue with
    | some (e, timer) =>
      let t := t.setTimer core timer
      advanceLoop callback core fuel ((callback t e (timer.cyclesLate e)).foldl exec t)
    | none => some t

/-- `Advance` of the timer of a core; `none` when the loop is not over after `fuel` turns. -/
def advance (callback : Callback) (core fuel : Nat) (t : Timing) : Option Timing :=
  (advanceLoop callback core fuel (t.setTimer core (t.timers core).beginAdvance)).map fun t =>
    t.setTimer core { t.timers core with isTimerSane := false }

@[simp] theorem setTimer_self (t : Timing) (core : Nat) (timer : Timer) :
    (t.setTimer core timer).timers core = timer := update_self ..

theorem setTimer_of_ne (t : Timing) {core k : Nat} (timer : Timer) (h : k ≠ core) :
    (t.setTimer core timer).timers k = t.timers k := update_of_ne h ..

theorem Timer.popDue_some {timer timer' : Timer} {e : Event} (h : timer.popDue = some (e, timer')) :
    e.time ≤ timer.executedTicks ∧ ∃ rest, timer.eventQueue = e :: rest ∧
      timer' = { timer with eventQueue := rest } := by
  unfold Timer.popDue at h
  split at h
  · rename_i rest hq
    split at h
    · rename_i hle
      obtain ⟨rfl, rfl⟩ := h
      exact ⟨hle, rest, hq, rfl⟩
    · cases h
  · cases h

theorem mem_pushHeap {q : List Event} {e x : Event} : x ∈ Timer.pushHeap q e ↔ x = e ∨ x ∈ q :=
  List.mem_orderedInsert Event.le

theorem pushHeap_sorted {q : List Event} (h : q.Pairwise Event.le) (e : Event) :
    (Timer.pushHeap q e).Pairwise Event.le := List.Pairwise.orderedInsert e q h

/-- When no event is due, every event of a sorted heap lies in the future. -/
theorem Timer.popDue_none {timer : Timer} (hs : timer.eventQueue.Pairwise Event.le) (h : timer.popDue = none) :
    ∀ e ∈ timer.eventQueue, timer.executedTicks < e.time := by
  unfold Timer.popDue at h
  intro e he
  cases hq : timer.eventQueue with
  | nil => rw [hq] at he; simp at he
  | cons e' rest =>
    rw [hq] at h he hs
    have hlt : timer.executedTicks < e'.time := by
      by_contra hle
      simp [not_lt.mp hle] at h
    rcases List.mem_cons.mp he with rfl | he'
    · exact hlt
    · have := (List.pairwise_cons.mp hs).1 e he'
      unfold Event.le at this
      omega

end Timing

end SweepDSEmu
