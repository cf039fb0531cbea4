import SweepDSEmu.Kernel.Errors
import SweepDSEmu.Timing.Basic

/-!
# Periodic kernel timers

The timers of `timer.cpp` on top of core timing.  `Timer::Set` schedules the first expiry, and every `Timer::Signal`
schedules the next one, the interval minus the lateness after the current tick.  The event loop of `Advance` compares
the new event with the same tick count, so it ends only when the next expiry is later than the one just delivered.

`nsToCycles` rounds down, and intervals of one to three nanoseconds become zero cycles.  `advanceEnds_iff` says that
this is the only way in which `Advance` can fail to end.

The signaled flag and the threads that a timer wakes up have no effect on the event loop and are not part of this
module.
-/

namespace SweepDSEmu

def baseClockRateArm11 : Int := 268111856

def maxValueToMultiply : Int := (2 ^ 63 - 1) / baseClockRateArm11

/-- `nsToCycles(s64)`.  The clock rate is unsigned, so the last product is taken modulo `2 ^ 64`. -/
def nsToCycles (ns : Int) : Int :=
  if ns.tdiv 1000000000 > maxValueToMultiply then 2 ^ 63 - 1
  else if ns > maxValueToMultiply then baseClockRateArm11 * ns.tdiv 1000000000
  else baseClockRateArm11 * ns % 2 ^ 64 / 1000000000

private theorem nsToCycles_eq {ns : Int} (h0 : 0 ≤ ns) (h1 : ns < 2 ^ 63) :
    nsToCycles ns = if ns > 34401209161 then 268111856 * (ns / 1000000000) else 268111856 * ns / 1000000000 := by
  have hmax : maxValueToMultiply = 34401209161 := by decide
  have hdiv : ns.tdiv 1000000000 = ns / 1000000000 := Int.tdiv_eq_ediv_of_nonneg h0
  unfold nsToCycles
  rw [hmax, hdiv, if_neg (by omega)]
  split
  · rfl
  · simp only [baseClockRateArm11]
    have hmod : 268111856 * ns % 2 ^ 64 = 268111856 * ns := Int.emod_eq_of_lt (by omega) (by omega)
    rw [hmod]

theorem nsToCycles_nonneg {ns : Int} (h0 : 0 ≤ ns) (h1 : ns < 2 ^ 63) : 0 ≤ nsToCycles ns := by
  rw [nsToCycles_eq h0 h1]
  split <;> omega

theorem nsToCycles_pos_iff {ns : Int} (h0 : 0 ≤ ns) (h1 : ns < 2 ^ 63) : 0 < nsToCycles ns ↔ 4 ≤ ns := by
  rw [nsToCycles_eq h0 h1]
  split <;> omega

namespace Timing

/-- The event type that `TimerManager` registers. -/
def timerCallbackEventType : Nat := 0

structure KernelTimer where
  initialDelay : Int := 0
  intervalDelay : Int := 0

def KernelTimer.signal (timer : KernelTimer) (callbackId : Nat) (cyclesLate : Int) : List Cmd :=
  if timer.intervalDelay ≠ 0 then
    [.schedule (nsToCycles timer.intervalDelay - cyclesLate) timerCallbackEventType callbackId none false]
  else []

/-- The timers by their callback id, with the timing they run on. -/
structure TimerSystem where
  timing : Timing
  timers : Nat → KernelTimer := fun _ => {}

namespace TimerSystem

/-- `TimerManager::TimerCallback`; events of another type schedule nothing. -/
def callback (timers : Nat → KernelTimer) : Callback := fun _ e cyclesLate =>
  if e.type = timerCallbackEventType then (timers e.userData).signal e.userData cyclesLate else []

def cancel (s : TimerSystem) (id : Nat) : TimerSystem :=
  { s with timing := s.timing.unscheduleEvent timerCallbackEventType id }

def set (s : TimerSystem) (id : Nat) (initial interval : Int) : TimerSystem :=
  let s := s.cancel id
  let timer : KernelTimer := ⟨initial, interval⟩
  { timers := Function.update s.timers id timer
    timing :=
      if initial = 0 then (timer.signal id 0).foldl exec s.timing
      else s.timing.scheduleEvent (nsToCycles initial) timerCallbackEventType id none false }

end TimerSystem

structure SetTimer where
  id : Nat
  initial : Int
  interval : Int

/-- The delays are 64-bit numbers. -/
def SetTimer.IsS64 (c : SetTimer) : Prop :=
  (-2 ^ 63 ≤ c.initial ∧ c.initial < 2 ^ 63) ∧ -2 ^ 63 ≤ c.interval ∧ c.interval < 2 ^ 63

instance : DecidablePred SetTimer.IsS64 := fun _ => inferInstanceAs (Decidable ((_ ∧ _) ∧ _ ∧ _))

/-- `SVC::SetTimer`, for the timer that the handle denotes. -/
def TimerSystem.svcSetTimer (s : TimerSystem) (c : SetTimer) : Except ResultCode TimerSystem :=
  if 0 ≤ c.initial ∧ 0 ≤ c.interval then .ok (s.set c.id c.initial c.interval) else .error .outOfRangeKernel

/-- The guest has run for `ticks` more cycles when `Advance` is called. -/
def late (t : Timing) (core : Nat) (ticks : Int) : Timing := t.setTimer core ((t.timers core).addTicks ticks)

/-- Inside the loop of `Advance` of a core. -/
structure InLoop (core : Nat) (t : Timing) : Prop where
  unlocked : t.eventQueueLocked = false
  current : t.currentTimer = core
  sane : (t.timers core).isTimerSane = true

variable {core : Nat} {timers : Nat → KernelTimer} {s : TimerSystem} {t : Timing}

private theorem InLoop.schedule (h : InLoop core t) (cycles : Int) (type userData : Nat) :
    t.scheduleEvent cycles type userData none false =
      { t.setTimer core { t.timers core with
          eventFifoId := (t.timers core).eventFifoId + 1
          eventQueue := Timer.pushHeap (t.timers core).eventQueue
            ⟨(t.timers core).executedTicks + cycles, (t.timers core).eventFifoId, userData, type, t.nextSerial⟩ } with
        nextSerial := t.nextSerial + 1 } := by
  unfold scheduleEvent
  rw [if_neg (by rw [h.unlocked]; decide)]
  simp [h.current, h.sane, Timer.getTicks]

private theorem InLoop.pop (h : InLoop core t) {timer : Timer} {e : Event}
    (hpop : (t.timers core).popDue = some (e, timer)) : InLoop core (t.setTimer core timer) := by
  obtain ⟨-, rest, -, rfl⟩ := Timer.popDue_some hpop
  exact ⟨h.unlocked, h.current, by rw [setTimer_self]; exact h.sane⟩

/-- The time at which the timer of the event `e` expires next. -/
def nextExpiry (timers : Nat → KernelTimer) (timer : Timer) (e : Event) : Int :=
  timer.executedTicks + (nsToCycles (timers e.userData).intervalDelay - timer.cyclesLate e)

def Periodic (timers : Nat → KernelTimer) (e : Event) : Prop :=
  e.type = timerCallbackEventType ∧ (timers e.userData).intervalDelay ≠ 0

instance (timers : Nat → KernelTimer) : DecidablePred (Periodic timers) := fun _ => inferInstanceAs (Decidable (_ ∧ _))

private theorem callback_spec (timers : Nat → KernelTimer) (h : InLoop core t) (e : Event)
    (t' : Timing) (ht' : t' = (TimerSystem.callback timers t e ((t.timers core).cyclesLate e)).foldl exec t) :
    InLoop core t' ∧ (t'.timers core).executedTicks = (t.timers core).executedTicks ∧ if Periodic timers e then
        ∃ x, x.time = nextExpiry timers (t.timers core) e ∧ x.type = e.type ∧ x.userData = e.userData ∧
          (t'.timers core).eventQueue = Timer.pushHeap (t.timers core).eventQueue x
      else (t'.timers core).eventQueue = (t.timers core).eventQueue := by
  subst ht'
  by_cases hp : Periodic timers e
  · obtain ⟨hty, hiv⟩ := hp
    rw [if_pos ⟨hty, hiv⟩, TimerSystem.callback, if_pos hty, KernelTimer.signal, if_pos hiv]
    simp only [List.foldl_cons, List.foldl_nil, exec, h.schedule]
    refine ⟨⟨h.unlocked, h.current, ?_⟩, ?_, ?_⟩
    · rw [setTimer_self]; exact h.sane
    · rw [setTimer_self]
    · refine ⟨_, ?_, ?_, ?_, by rw [setTimer_self]⟩
      · rfl
      · exact hty.symm
      · rfl
  · have hnil : TimerSystem.callback timers t e ((t.timers core).cyclesLate e) = [] := by
      unfold TimerSystem.callback KernelTimer.signal
      by_cases hty : e.type = timerCallbackEventType
      · have hiv : (timers e.userData).intervalDelay = 0 := by
          by_contra hne
          exact hp ⟨hty, hne⟩
        simp [hiv]
      · rw [if_neg hty]
    rw [if_neg hp, hnil]
    exact ⟨h, rfl, rfl⟩

def KernelTimer.Sound (timer : KernelTimer) : Prop := timer.intervalDelay ≠ 0 → 0 < nsToCycles timer.intervalDelay

private theorem nextExpiry_gt (timer : Timer) {e : Event}
    (hs : (timers e.userData).Sound) (hp : Periodic timers e) (hdue : e.time ≤ timer.executedTicks) :
    e.time < nextExpiry timers timer e := by
  have h1 := hs hp.2
  have h2 : timer.cyclesLate e ≤ timer.executedTicks - e.time := toInt32_le (by omega)
  unfold nextExpiry
  omega

def lateness (executedTicks : Int) (queue : List Event) : Nat :=
  (queue.map fun e => (executedTicks + 1 - e.time).toNat).sum

private theorem lateness_pushHeap (ticks : Int) (q : List Event) (x : Event) :
    lateness ticks (Timer.pushHeap q x) = (ticks + 1 - x.time).toNat + lateness ticks q := by
  unfold lateness Timer.pushHeap
  rw [((List.perm_orderedInsert Event.le x q).map _).sum_nat, List.map_cons, List.sum_cons]

private theorem turn_decreases (hs : ∀ id, (timers id).Sound)
    (h : InLoop core t) {e : Event} {timer : Timer} (hpop : (t.timers core).popDue = some (e, timer)) {t' : Timing}
    (ht' : t' = (TimerSystem.callback timers (t.setTimer core timer) e (timer.cyclesLate e)).foldl exec
      (t.setTimer core timer)) :
    InLoop core t' ∧ lateness (t'.timers core).executedTicks (t'.timers core).eventQueue <
      lateness (t.timers core).executedTicks (t.timers core).eventQueue := by
  obtain ⟨hdue, rest, hq, htimer⟩ := Timer.popDue_some hpop
  have hself : (t.setTimer core timer).timers core = timer := setTimer_self ..
  obtain ⟨hin, hticks, hqueue⟩ := callback_spec timers (h.pop hpop) e t' (by rw [hself]; exact ht')
  refine ⟨hin, ?_⟩
  rw [hself] at hticks hqueue
  have hbefore : lateness (t.timers core).executedTicks (t.timers core).eventQueue =
      ((t.timers core).executedTicks + 1 - e.time).toNat + lateness (t.timers core).executedTicks rest := by
    rw [hq]; rfl
  have hexec : timer.executedTicks = (t.timers core).executedTicks := by rw [htimer]
  have hrest : timer.eventQueue = rest := by rw [htimer]
  rw [hbefore, hticks, hexec]
  split at hqueue
  · rename_i hp
    obtain ⟨x, hx, -, -, hxq⟩ := hqueue
    have hgt := nextExpiry_gt timer (hs e.userData) hp (by rw [hexec]; exact hdue)
    rw [hxq, lateness_pushHeap, hrest]
    omega
  · rw [hqueue, hrest]
    omega

private theorem advanceLoop_ends (hs : ∀ id, (timers id).Sound) (fuel : Nat) (t : Timing) (h : InLoop core t)
    (hfuel : lateness (t.timers core).executedTicks (t.timers core).eventQueue < fuel) :
    ∃ t', advanceLoop (TimerSystem.callback timers) core fuel t = some t' := by
  induction fuel generalizing t with
  | zero => omega
  | succ fuel ih =>
    simp only [advanceLoop]
    split
    · rename_i e timer hpop
      obtain ⟨hin, hlt⟩ := turn_decreases hs h hpop rfl
      exact ih _ hin (by omega)
    · exact ⟨t, rfl⟩

theorem advance_ends (hs : ∀ id, (timers id).Sound) (hu : t.eventQueueLocked = false) (hc : t.currentTimer = core) :
    ∃ fuel t', advance (TimerSystem.callback timers) core fuel t = some t' := by
  have hin : InLoop core (t.setTimer core (t.timers core).beginAdvance) := ⟨hu, hc, by rw [setTimer_self]; rfl⟩
  obtain ⟨t', ht'⟩ := advanceLoop_ends hs _ _ hin (Nat.lt_succ_self _)
  exact ⟨_, _, by unfold advance; rw [ht']; rfl⟩

private structure Stuck (timers : Nat → KernelTimer) (core id : Nat) (t : Timing) : Prop where
  loop : InLoop core t
  sorted : (t.timers core).eventQueue.Pairwise Event.le
  due : ∃ x ∈ (t.timers core).eventQueue, x.type = timerCallbackEventType ∧ x.userData = id ∧
    x.time = (t.timers core).executedTicks

private theorem Stuck.turn {core id : Nat} (h : Stuck timers core id t)
    (hiv : (timers id).intervalDelay ≠ 0) (hzero : nsToCycles (timers id).intervalDelay = 0) :
    ∃ e timer, (t.timers core).popDue = some (e, timer) ∧
      Stuck timers core id ((TimerSystem.callback timers (t.setTimer core timer) e (timer.cyclesLate e)).foldl exec
        (t.setTimer core timer)) := by
  obtain ⟨x, hx, hty, hud, htime⟩ := h.due
  cases hpop : (t.timers core).popDue with
  | none =>
    have := Timer.popDue_none h.sorted hpop x hx
    omega
  | some p =>
    obtain ⟨e, timer⟩ := p
    refine ⟨e, timer, rfl, ?_⟩
    obtain ⟨hdue, rest, hq, htimer⟩ := Timer.popDue_some hpop
    have hself : (t.setTimer core timer).timers core = timer := setTimer_self ..
    obtain ⟨hin, hticks, hqueue⟩ := callback_spec timers (h.loop.pop hpop) e _ (by rw [hself])
    rw [hself] at hticks hqueue
    have hexec : timer.executedTicks = (t.timers core).executedTicks := by rw [htimer]
    have hrest : timer.eventQueue = rest := by rw [htimer]
    have hsorted := h.sorted
    rw [hq, List.pairwise_cons] at hsorted
    rw [hq] at hx
    by_cases hp : Periodic timers e
    · rw [if_pos hp] at hqueue
      obtain ⟨y, hy, hyty, hyud, hyq⟩ := hqueue
      rw [hrest] at hyq
      refine ⟨hin, ?_, ?_⟩
      · rw [hyq]; exact pushHeap_sorted hsorted.2 y
      · rw [hyq, hticks, hexec]
        rcases List.mem_cons.mp hx with rfl | hx
        · -- the timer itself expires: the next expiry is at the same tick
          refine ⟨y, mem_pushHeap.mpr (Or.inl rfl), hyty.trans hty, hyud.trans hud, ?_⟩
          have hlate : timer.cyclesLate x = 0 := by
            rw [Timer.cyclesLate, hexec, htime, Int.sub_self]
            rfl
          rw [hy, nextExpiry, hlate, hud, hzero, hexec]
          omega
        · exact ⟨x, mem_pushHeap.mpr (Or.inr hx), hty, hud, htime⟩
    · rw [if_neg hp, hrest] at hqueue
      refine ⟨hin, ?_, ?_⟩
      · rw [hqueue]; exact hsorted.2
      · rw [hqueue, hticks, hexec]
        rcases List.mem_cons.mp hx with rfl | hx
        · exact absurd ⟨hty, by rw [hud]; exact hiv⟩ hp
        · exact ⟨x, hx, hty, hud, htime⟩

private theorem Stuck.never_ends {core id : Nat} (h : Stuck timers core id t) (hiv : (timers id).intervalDelay ≠ 0)
    (hzero : nsToCycles (timers id).intervalDelay = 0) (fuel : Nat) :
    advanceLoop (TimerSystem.callback timers) core fuel t = none := by
  induction fuel generalizing t with
  | zero => rfl
  | succ fuel ih =>
    obtain ⟨e, timer, hpop, h'⟩ := h.turn hiv hzero
    simp only [advanceLoop, hpop]
    exact ih h'

/-- A list of `svcSetTimer` calls that all succeed. -/
def armed (t : Timing) (calls : List SetTimer) : Except ResultCode TimerSystem :=
  calls.foldlM TimerSystem.svcSetTimer ⟨t, fun _ => {}⟩

private def SetTimer.firstDelay (c : SetTimer) : Int := nsToCycles (if c.initial = 0 then c.interval else c.initial)

private theorem cancel_queue (h : InLoop core s.timing) (id : Nat) :
    InLoop core (s.cancel id).timing ∧ ((s.cancel id).timing.timers core) =
      { s.timing.timers core with
        eventQueue := (s.timing.timers core).eventQueue.filter fun e =>
          !(e.type == timerCallbackEventType && e.userData == id) } := by
  have heq : (s.cancel id).timing =
      { s.timing with
        timers := fun k =>
          { s.timing.timers k with
            eventQueue := (s.timing.timers k).eventQueue.filter fun e =>
              !(e.type == timerCallbackEventType && e.userData == id) } } := by
    unfold TimerSystem.cancel unscheduleEvent eraseEvents
    rw [if_neg (by rw [h.unlocked]; decide)]
  rw [heq]
  exact ⟨⟨h.unlocked, h.current, h.sane⟩, rfl⟩

/-- Before the first `Advance` of a core: nothing has run yet. -/
private structure Fresh (core : Nat) (t : Timing) : Prop where
  loop : InLoop core t
  sorted : (t.timers core).eventQueue.Pairwise Event.le
  ts : (t.timers core).tsQueue = []
  ticks : (t.timers core).executedTicks = 0
  slice : (t.timers core).sliceLength = (t.timers core).downcount

private theorem Fresh.schedule (h : Fresh core t) (cycles : Int) (id : Nat) :
    Fresh core (t.scheduleEvent cycles timerCallbackEventType id none false) ∧
      ∃ x : Event, x.type = timerCallbackEventType ∧ x.userData = id ∧ x.time = cycles ∧
        ((t.scheduleEvent cycles timerCallbackEventType id none false).timers core).eventQueue =
          Timer.pushHeap (t.timers core).eventQueue x := by
  rw [h.loop.schedule]
  refine ⟨⟨⟨h.loop.unlocked, h.loop.current, ?_⟩, ?_, ?_, ?_, ?_⟩, ?_⟩
  · rw [setTimer_self]; exact h.loop.sane
  · rw [setTimer_self]; exact pushHeap_sorted h.sorted _
  · rw [setTimer_self]; exact h.ts
  · rw [setTimer_self]; exact h.ticks
  · rw [setTimer_self]; exact h.slice
  · refine ⟨⟨_, _, id, timerCallbackEventType, _⟩, rfl, rfl, ?_, by rw [setTimer_self]⟩
    show (t.timers core).executedTicks + cycles = cycles
    rw [h.ticks]
    omega

private theorem Fresh.set (h : Fresh core s.timing) (c : SetTimer) :
    Fresh core (s.set c.id c.initial c.interval).timing ∧
      (∀ x ∈ (s.timing.timers core).eventQueue, x.userData ≠ c.id →
        x ∈ ((s.set c.id c.initial c.interval).timing.timers core).eventQueue) ∧
      (c.interval ≠ 0 → ∃ x ∈ ((s.set c.id c.initial c.interval).timing.timers core).eventQueue,
        x.type = timerCallbackEventType ∧ x.userData = c.id ∧ x.time = c.firstDelay) := by
  obtain ⟨hin, hq⟩ := cancel_queue h.loop c.id
  have hcancel : Fresh core (s.cancel c.id).timing := by
    refine ⟨hin, ?_, ?_, ?_, ?_⟩ <;> rw [hq]
    · exact h.sorted.sublist List.filter_sublist
    · exact h.ts
    · exact h.ticks
    · exact h.slice
  have hkeep : ∀ x ∈ (s.timing.timers core).eventQueue, x.userData ≠ c.id →
      x ∈ ((s.cancel c.id).timing.timers core).eventQueue := by
    intro x hx hne
    rw [hq]
    exact List.mem_filter.mpr ⟨hx, by simp [hne]⟩
  have hschedule : ∀ cycles, let t' := (s.cancel c.id).timing.scheduleEvent cycles timerCallbackEventType c.id none false
      Fresh core t' ∧
        (∀ x ∈ (s.timing.timers core).eventQueue, x.userData ≠ c.id → x ∈ (t'.timers core).eventQueue) ∧
        ∃ x ∈ (t'.timers core).eventQueue, x.type = timerCallbackEventType ∧ x.userData = c.id ∧ x.time = cycles := by
    intro cycles
    obtain ⟨hf, x, hty, hud, htime, hxq⟩ := hcancel.schedule cycles c.id
    refine ⟨hf, ?_, x, ?_, hty, hud, htime⟩
    · intro y hy hne
      rw [hxq]
      exact mem_pushHeap.mpr (Or.inr (hkeep y hy hne))
    · rw [hxq]
      exact mem_pushHeap.mpr (Or.inl rfl)
  unfold TimerSystem.set SetTimer.firstDelay
  by_cases hi : c.initial = 0
  · simp only [if_pos hi, KernelTimer.signal]
    by_cases hiv : c.interval = 0
    · simp only [hiv, ne_eq, not_true_eq_false, if_false, List.foldl_nil]
      exact ⟨hcancel, hkeep, fun hne => hne.elim⟩
    · simp only [ne_eq, hiv, not_false_eq_true, if_true, List.foldl_cons, List.foldl_nil, exec, Int.sub_zero]
      obtain ⟨h1, h2, h3⟩ := hschedule (nsToCycles c.interval)
      exact ⟨h1, h2, fun _ => h3⟩
  · simp only [if_neg hi]
    obtain ⟨h1, h2, h3⟩ := hschedule (nsToCycles c.initial)
    exact ⟨h1, h2, fun _ => h3⟩

private def setAll (s : TimerSystem) (calls : List SetTimer) : TimerSystem :=
  calls.foldl (fun s c => s.set c.id c.initial c.interval) s

/-- The check of `SVC::SetTimer`. -/
def SetTimer.Accepted (c : SetTimer) : Prop := 0 ≤ c.initial ∧ 0 ≤ c.interval

instance : DecidablePred SetTimer.Accepted := fun _ => inferInstanceAs (Decidable (_ ∧ _))

private theorem foldlM_svcSetTimer (s : TimerSystem) {calls : List SetTimer} (h : ∀ c ∈ calls, c.Accepted) :
    calls.foldlM TimerSystem.svcSetTimer s = .ok (setAll s calls) := by
  induction calls generalizing s with
  | nil => rfl
  | cons c calls ih =>
    have hc : s.svcSetTimer c = .ok (s.set c.id c.initial c.interval) := if_pos (h c List.mem_cons_self)
    rw [List.foldlM_cons, hc]
    exact ih _ fun c' hc' => h c' (List.mem_cons_of_mem _ hc')

private theorem exec_context (t : Timing) (cmd : Cmd) :
    (t.exec cmd).eventQueueLocked = t.eventQueueLocked ∧ (t.exec cmd).currentTimer = t.currentTimer := by
  cases cmd <;> simp only [exec, scheduleEvent, unscheduleEvent, removeEvent, eraseEvents, pushTs] <;> split_ifs <;>
    exact ⟨rfl, rfl⟩

private theorem set_context (s : TimerSystem) (c : SetTimer) :
    (s.set c.id c.initial c.interval).timing.eventQueueLocked = s.timing.eventQueueLocked ∧
      (s.set c.id c.initial c.interval).timing.currentTimer = s.timing.currentTimer := by
  have hcancel := exec_context s.timing (.unschedule timerCallbackEventType c.id)
  have hschedule : ∀ cycles, let t' := (s.cancel c.id).timing.scheduleEvent cycles timerCallbackEventType c.id none false
      t'.eventQueueLocked = s.timing.eventQueueLocked ∧ t'.currentTimer = s.timing.currentTimer := by
    intro cycles
    have h := exec_context (s.cancel c.id).timing (.schedule cycles timerCallbackEventType c.id none false)
    exact ⟨h.1.trans hcancel.1, h.2.trans hcancel.2⟩
  unfold TimerSystem.set KernelTimer.signal
  by_cases hi : c.initial = 0
  · by_cases hiv : c.interval = 0
    · simp only [if_pos hi, hiv, ne_eq, not_true_eq_false, if_false, List.foldl_nil]
      exact hcancel
    · simp only [if_pos hi, ne_eq, hiv, not_false_eq_true, if_true, List.foldl_cons, List.foldl_nil]
      exact hschedule _
  · simp only [if_neg hi]
    exact hschedule _

private theorem setAll_context (s : TimerSystem) (calls : List SetTimer) :
    (setAll s calls).timing.eventQueueLocked = s.timing.eventQueueLocked ∧
      (setAll s calls).timing.currentTimer = s.timing.currentTimer := by
  induction calls generalizing s with
  | nil => exact ⟨rfl, rfl⟩
  | cons c calls ih =>
    obtain ⟨h1, h2⟩ := ih (s.set c.id c.initial c.interval)
    obtain ⟨h3, h4⟩ := set_context s c
    exact ⟨h1.trans h3, h2.trans h4⟩

private theorem setAll_timers (s : TimerSystem) (calls : List SetTimer) (id : Nat) :
    (setAll s calls).timers id = s.timers id ∨
      ∃ c ∈ calls, c.id = id ∧ (setAll s calls).timers id = ⟨c.initial, c.interval⟩ := by
  induction calls generalizing s with
  | nil => exact Or.inl rfl
  | cons c calls ih =>
    rcases ih (s.set c.id c.initial c.interval) with h | ⟨c', hc', hid, h⟩
    · by_cases hid : id = c.id
      · subst hid
        refine Or.inr ⟨c, List.mem_cons_self, rfl, h.trans ?_⟩
        exact Function.update_self ..
      · refine Or.inl (h.trans ?_)
        exact Function.update_of_ne hid ..
    · exact Or.inr ⟨c', List.mem_cons_of_mem _ hc', hid, h⟩

private theorem Fresh.setAll (h : Fresh core s.timing) (calls : List SetTimer)
    {x : Event} (hx : x ∈ (s.timing.timers core).eventQueue) (hne : ∀ c ∈ calls, c.id ≠ x.userData) :
    Fresh core (setAll s calls).timing ∧ x ∈ ((setAll s calls).timing.timers core).eventQueue := by
  induction calls generalizing s with
  | nil => exact ⟨h, hx⟩
  | cons c calls ih =>
    obtain ⟨h1, h2, -⟩ := h.set c
    have hx' := h2 x hx fun heq => hne c List.mem_cons_self heq.symm
    exact ih h1 hx' fun c' hc' => hne c' (List.mem_cons_of_mem _ hc')

private theorem fresh_setAll (h : Fresh core s.timing) (calls : List SetTimer) :
    Fresh core (setAll s calls).timing := by
  induction calls generalizing s with
  | nil => exact h
  | cons c calls ih => exact ih (h.set c).1

private theorem fresh_init : Fresh 0 (Timing.init 1 0) :=
  ⟨⟨rfl, rfl, rfl⟩, List.Pairwise.nil, rfl, rfl, rfl⟩

def ReschedulesLater (timers : Nat → KernelTimer) (core : Nat) : Prop :=
  ∀ t e, InLoop core t → e.time ≤ (t.timers core).executedTicks →
    ∀ x ∈ (((TimerSystem.callback timers t e ((t.timers core).cyclesLate e)).foldl exec t).timers core).eventQueue,
      x ∈ (t.timers core).eventQueue ∨ e.time < x.time

/-- The timers that a list of `svcSetTimer` calls arms, on any core and with any lateness, let `Advance` end, and
each expiry schedules the next one at a later tick. -/
def AdvanceEnds (calls : List SetTimer) : Prop :=
  ∀ core t s ticks, t.eventQueueLocked = false → t.currentTimer = core → armed t calls = .ok s → 0 ≤ ticks →
    (∃ fuel t', advance (TimerSystem.callback s.timers) core fuel (s.timing.late core ticks) = some t') ∧
      ReschedulesLater s.timers core

private theorem reschedulesLater (hs : ∀ id, (timers id).Sound) (core : Nat) : ReschedulesLater timers core := by
  intro t e hin hdue x hx
  obtain ⟨-, -, hqueue⟩ := callback_spec timers hin e _ rfl
  by_cases hp : Periodic timers e
  · rw [if_pos hp] at hqueue
    obtain ⟨y, hy, -, -, hyq⟩ := hqueue
    rw [hyq] at hx
    rcases mem_pushHeap.mp hx with rfl | hx
    · right
      rw [hy]
      exact nextExpiry_gt _ (hs e.userData) hp hdue
    · exact Or.inl hx
  · rw [if_neg hp] at hqueue
    rw [hqueue] at hx
    exact Or.inl hx

private theorem not_advanceEnds {calls : List SetTimer} (hacc : ∀ c ∈ calls, c.Accepted) (hs : ∀ c ∈ calls, c.IsS64)
    (hnd : (calls.map SetTimer.id).Nodup) {c : SetTimer} (hc : c ∈ calls) (h0 : c.interval ≠ 0) (h4 : c.interval < 4) :
    ¬ AdvanceEnds calls := by
  intro hends
  have hzero : nsToCycles c.interval = 0 := by
    have h1 := nsToCycles_nonneg (hacc c hc).2 (hs c hc).2.2
    have h2 := (nsToCycles_pos_iff (hacc c hc).2 (hs c hc).2.2).not.mpr (by omega)
    omega
  obtain ⟨pre, post, rfl⟩ := List.append_of_mem hc
  have hpost : ∀ c' ∈ post, c'.id ≠ c.id := by
    rw [List.map_append, List.map_cons] at hnd
    have hnot := (List.nodup_cons.mp hnd.of_append_right).1
    intro c' hc' heq
    exact hnot (heq ▸ List.mem_map_of_mem hc')
  let s₀ : TimerSystem := ⟨Timing.init 1 0, fun _ => {}⟩
  let s₁ := setAll s₀ pre
  let s₂ := s₁.set c.id c.initial c.interval
  have hfresh : Fresh 0 s₁.timing := fresh_setAll fresh_init pre
  obtain ⟨hf₂, -, hx⟩ := hfresh.set c
  obtain ⟨x, hxq, hty, hud, htime⟩ := hx h0
  obtain ⟨hf₃, hx₃⟩ := Fresh.setAll (s := s₂) hf₂ post hxq (by rw [hud]; exact hpost)
  have hs₃ : setAll s₀ (pre ++ c :: post) = setAll s₂ post := by
    simp only [setAll, List.foldl_append, List.foldl_cons, s₂, s₁]
  have htimer : ((setAll s₂ post).timers c.id) = ⟨c.initial, c.interval⟩ := by
    rcases setAll_timers s₂ post c.id with h | ⟨c', hc', hid, -⟩
    · rw [h]; exact Function.update_self ..
    · exact absurd hid (hpost c' hc')
  have hdelay : 0 ≤ c.firstDelay := by
    unfold SetTimer.firstDelay
    split
    · exact nsToCycles_nonneg (hacc c hc).2 (hs c hc).2.2
    · exact nsToCycles_nonneg (hacc c hc).1 (hs c hc).1.2
  have harmed : armed (Timing.init 1 0) (pre ++ c :: post) = .ok (setAll s₂ post) := by
    rw [← hs₃]; exact foldlM_svcSetTimer s₀ hacc
  obtain ⟨⟨fuel, t', hadv⟩, -⟩ := hends 0 (Timing.init 1 0) _ c.firstDelay rfl rfl harmed hdelay
  -- after `beginAdvance` the expiry of the timer is due at exactly the current tick
  have hstuck : Stuck (setAll s₂ post).timers 0 c.id
      (((setAll s₂ post).timing.late 0 c.firstDelay).setTimer 0
        (((setAll s₂ post).timing.late 0 c.firstDelay).timers 0).beginAdvance) := by
    refine ⟨⟨hf₃.loop.unlocked, hf₃.loop.current, by rw [setTimer_self]; rfl⟩, ?_, x, ?_, hty, hud, ?_⟩
    all_goals
      simp only [late, setTimer_self, Timer.beginAdvance, Timer.moveEvents, Timer.addTicks, hf₃.ts, List.foldl_nil]
    · exact hf₃.sorted
    · exact hx₃
    · rw [htime, hf₃.ticks, hf₃.slice]
      omega
  have hnone := hstuck.never_ends (by rw [htimer]; exact h0) (by rw [htimer]; exact hzero) fuel
  unfold advance at hadv
  rw [hnone] at hadv
  cases hadv

/-- `Advance` ends with the timers of a list of accepted `svcSetTimer` calls exactly when no interval is one, two or
three nanoseconds. -/
theorem advanceEnds_iff (calls : List SetTimer) (hs : ∀ c ∈ calls, c.IsS64) (hacc : ∀ c ∈ calls, c.Accepted)
    (hnd : (calls.map SetTimer.id).Nodup) :
    AdvanceEnds calls ↔ ∀ c ∈ calls, c.interval = 0 ∨ 4 ≤ c.interval := by
  constructor
  · intro hends c hc
    by_contra hcon
    exact not_advanceEnds hacc hs hnd hc (by omega) (by omega) hends
  · intro hiv core t s ticks hu hcur harmed hticks
    have hsetAll := harmed.symm.trans (foldlM_svcSetTimer ⟨t, fun _ => {}⟩ hacc)
    cases hsetAll
    have hsound : ∀ id, ((setAll ⟨t, fun _ => {}⟩ calls).timers id).Sound := by
      intro id hne
      rcases setAll_timers ⟨t, fun _ => {}⟩ calls id with h | ⟨c, hc, -, h⟩
      · rw [h] at hne
        exact absurd rfl hne
      · rw [h] at hne ⊢
        have h4 : 4 ≤ c.interval := (hiv c hc).resolve_left hne
        exact (nsToCycles_pos_iff (hacc c hc).2 (hs c hc).2.2).mpr h4
    obtain ⟨hlocked, hcurrent⟩ := setAll_context ⟨t, fun _ => {}⟩ calls
    exact ⟨advance_ends hsound (hlocked.trans hu) (hcurrent.trans hcur), reschedulesLater hsound core⟩

theorem four_ns_advanceEnds :
    (∀ c ∈ [SetTimer.mk 1 0 4, ⟨2, 1, 0⟩], c.IsS64 ∧ c.Accepted) ∧ AdvanceEnds [⟨1, 0, 4⟩, ⟨2, 1, 0⟩] :=
  ⟨by decide, (advanceEnds_iff [⟨1, 0, 4⟩, ⟨2, 1, 0⟩] (by decide) (by decide) (by decide)).mpr (by decide)⟩

theorem one_ns_not_advanceEnds :
    (SetTimer.mk 1 1 1).IsS64 ∧ (SetTimer.mk 1 1 1).Accepted ∧ ¬ AdvanceEnds [⟨1, 1, 1⟩] := by
  refine ⟨by decide, by decide, ?_⟩
  exact not_advanceEnds (by decide) (by decide) (by decide) List.mem_cons_self (by decide) (by decide)

end Timing

end SweepDSEmu
