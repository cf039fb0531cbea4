import SweepDSEmu.Kernel.SleepThread

/-!
# The limiter of core 1 and sleeps

`CpuLimiterMulti` of `thread.cpp` parks a thread by giving it the status of a sleeping one, and remembers its id.  The runs
here interleave the limiter with waits, signals, timeouts and sleeps.

* `LimiterRun` is the state of the scheduler with what a run remembers: the threads that sleep since `SleepThread`, those
  that `DoTimeLimit` has parked, and the sleeps that `WakeupSleepingThreads` has cut short.
* A step is quiet (no thread falls asleep and the limiter keeps its ids), drains the ids, or parks threads.  Each kind
  has one lemma, and `run_sleepsWhole` puts them together.
* An id stays with the limiter when a pending timeout resumes the parked thread; the sleep of such a thread is cut short.
-/

namespace SweepDSEmu

open Function

namespace Scheduler

def sleepingThreadIds (s : Scheduler) : List ThreadId := s.cpuLimiter.sleepingThreadIds

def start (s : Scheduler) : Scheduler :=
  if s.cpuLimiter.ready then s
  else s.modifyLimiter fun l =>
    { l with ready := true, active := false, currState := .app, appCpuTime := preemptionDisabled }

def endLimiter (s : Scheduler) : Scheduler :=
  if s.cpuLimiter.ready then
    (s.modifyLimiter fun l => { l with ready := false, active := false }).wakeupSleepingThreads
  else s

def changeState (s : Scheduler) : Scheduler :=
  s.modifyLimiter fun l => { l with currState := if l.currState = .sys then .app else .sys }

def onTick (s : Scheduler) : Scheduler := s.wakeupSleepingThreads.changeState

def updateAppCpuLimit (s : Scheduler) (value : Int) : Scheduler :=
  if s.cpuLimiter.ready then
    if value = preemptionDisabled then
      (s.modifyLimiter fun l => { l with appCpuTime := value, active := false }).wakeupSleepingThreads
    else (s.modifyLimiter fun l => { l with appCpuTime := value, active := true }).changeState
  else s

def setScheduleMode (s : Scheduler) (mode : Core1ScheduleMode) : Scheduler :=
  { s.endLimiter with currentScheduleMode := mode }.start

def objectStatuses : List ThreadStatus := [.waitArb, .waitIPC, .waitSynchAny, .waitSynchAll, .waitHleEvent]

def waitForObject (s : Scheduler) (core : Nat) (status : ThreadStatus) (nanoseconds : Int) : Scheduler :=
  match (s.managers core).currentThread with
  | none => s
  | some t =>
    if s.status t = .running ∧ status ∈ objectStatuses then (s.setStatus t status).wakeAfterDelay t nanoseconds else s

def signalThread (s : Scheduler) (t : ThreadId) : Scheduler :=
  if s.status t ∈ objectStatuses then s.resumeFromWait t else s

def threadWakeupCallback (s : Scheduler) (t : ThreadId) : Scheduler :=
  if s.wakeupEvents t = 0 then s
  else { s with wakeupEvents := Function.update s.wakeupEvents t (s.wakeupEvents t - 1) }.resumeFromWait t

/-- A thread is stopped and removed from the list of its manager. -/
def terminateThread (s : Scheduler) (t : ThreadId) : Scheduler := (s.kill t).unlist (s.coreId t) t

end Scheduler

inductive LimiterOp where
  | setScheduleMode (mode : Core1ScheduleMode)
  | endLimiter
  | updateAppCpuLimit (value : Int)
  /-- The tick event fires. -/
  | onTick
  | setLimitValue (category : ResourceLimitCategory) (value : Int)
  | createThread (priority core process : Nat) (category : ResourceLimitCategory) (ready : Bool)
  | terminateThread (t : ThreadId)
  | setThreadPriority (t : ThreadId) (priority : Nat)
  | setUnscheduleMode (t : ThreadId) (mode : UnscheduleMode) (value : Bool)
  | waitForObject (core : Nat) (status : ThreadStatus) (nanoseconds : Int)
  /-- An object is signaled. -/
  | signal (t : ThreadId)
  /-- A wakeup event fires. -/
  | timeout (t : ThreadId)
  | sleepThread (core : Nat) (nanoseconds : Int)
  | reschedule (core : Nat)

structure LimiterRun where
  sched : Scheduler := {}
  /-- The thread sleeps since `SleepThread`. -/
  asleep : ThreadId → Bool := fun _ => false
  /-- The thread was parked by `DoTimeLimit` and has not been resumed. -/
  parked : ThreadId → Bool := fun _ => false
  /-- The threads whose sleep `WakeupSleepingThreads` has ended. -/
  cutShort : List ThreadId := []

namespace LimiterRun

open Scheduler

def fellAsleep (g : LimiterRun) (s : Scheduler) (t : ThreadId) : Bool :=
  g.sched.status t != .waitSleep && s.status t == .waitSleep

def advance (g : LimiterRun) (s : Scheduler) : LimiterRun :=
  { g with
    sched := s
    asleep := fun t => g.asleep t && s.status t == .waitSleep
    parked := fun t => g.parked t && s.status t == .waitSleep }

def wake (g : LimiterRun) (s : Scheduler) : LimiterRun :=
  { g.advance s with
    cutShort := g.cutShort ++ g.sched.sleepingThreadIds.filter fun t => g.asleep t && s.status t == .ready }

def exec (g : LimiterRun) : LimiterOp → Except KernelFault LimiterRun
  | .setScheduleMode mode => .ok (g.wake (g.sched.setScheduleMode mode))
  | .endLimiter => .ok (g.wake g.sched.endLimiter)
  | .updateAppCpuLimit value => .ok (g.wake (g.sched.updateAppCpuLimit value))
  -- the tick event is scheduled as long as the limiter is active
  | .onTick => if g.sched.cpuLimiter.active then .ok (g.wake g.sched.onTick) else .ok g
  | .setLimitValue category value =>
    .ok (g.advance { g.sched with cpuTimeLimit := Function.update g.sched.cpuTimeLimit category value })
  | .createThread priority core process category ready => do
    return g.advance (← g.sched.exec (.createThread priority core process category ready))
  | .terminateThread t => .ok (g.advance (g.sched.terminateThread t))
  | .setThreadPriority t priority => do return g.advance (← g.sched.exec (.setThreadPriority t priority))
  | .setUnscheduleMode t mode value => .ok (g.advance (g.sched.setUnscheduleMode t mode value))
  | .waitForObject core status nanoseconds => .ok (g.advance (g.sched.waitForObject core status nanoseconds))
  | .signal t => .ok (g.advance (g.sched.signalThread t))
  | .timeout t => .ok (g.advance (g.sched.threadWakeupCallback t))
  | .sleepThread core nanoseconds =>
    match (g.sched.managers core).currentThread with
    | none => .ok g
    | some t =>
      -- only the running thread makes system calls
      if g.sched.status t = .running then do
        let (_, s) ← g.sched.sleepThread core nanoseconds
        return { g.advance s with asleep := fun u => (g.advance s).asleep u || g.fellAsleep s u }
      else .ok g
  | .reschedule core => do
    let s ← g.sched.reschedule core
    return { g.advance s with parked := fun u => (g.advance s).parked u || g.fellAsleep s u }

/-- The operations one after the other, from a state without threads. -/
def run (ops : List LimiterOp) : Except KernelFault LimiterRun := ops.foldlM exec {}

/-- A thread that calls `SleepThread` is not one whose id the limiter still has. -/
def Fresh (g : LimiterRun) : LimiterOp → Prop
  | .sleepThread core _ => ∀ t, (g.sched.managers core).currentThread = some t → t ∉ g.sched.sleepingThreadIds
  | _ => True

def FreshRun : LimiterRun → List LimiterOp → Prop
  | _, [] => True
  | g, op :: ops => Fresh g op ∧ ∀ g', g.exec op = .ok g' → FreshRun g' ops

end LimiterRun

namespace Scheduler

section Steps

variable {s s' : Scheduler} {t : ThreadId}

/-- What holds of the scheduler in every state: besides the ready queues, every thread that lives is in the list of its
manager, and only a limiter that is in use and ready has ids. -/
structure Tracked (s : Scheduler) : Prop where
  consistent : Consistent none s
  listed : ∀ t, s.status t ≠ .dead → t ∈ (s.managers (s.coreId t)).threadList
  unused : ∀ m, m ≠ s.currentScheduleMode → (s.limiters m).sleepingThreadIds = []
  unready : s.cpuLimiter.ready = false → s.sleepingThreadIds = []

/-- No thread falls asleep, and the limiter keeps its ids. -/
structure Quiet (s s' : Scheduler) : Prop where
  status : ∀ t, s'.status t = .waitSleep → s.status t = .waitSleep
  coreId : ∀ t, s.status t ≠ .dead → s'.coreId t = s.coreId t
  ids : s'.sleepingThreadIds = s.sleepingThreadIds

structure Drained (s s' : Scheduler) : Prop where
  status : ∀ t, s'.status t = .waitSleep → s.status t = .waitSleep ∧ (s.coreId t = 1 → t ∉ s.sleepingThreadIds)
  ids : s'.sleepingThreadIds = []

structure Parks (s s' : Scheduler) : Prop where
  mode : s'.currentScheduleMode = s.currentScheduleMode
  other : ∀ m, m ≠ s.currentScheduleMode → s'.limiters m = s.limiters m
  ready : s'.cpuLimiter.ready = s.cpuLimiter.ready
  grows : ∀ t, t ∈ s.sleepingThreadIds → t ∈ s'.sleepingThreadIds
  fresh : ∀ t, t ∈ s'.sleepingThreadIds → t ∈ s.sleepingThreadIds ∨ s.status t ≠ .waitSleep
  unready : s.cpuLimiter.ready = false → s'.sleepingThreadIds = s.sleepingThreadIds
  status : ∀ t, s'.status t = .waitSleep → s.status t = .waitSleep ∨ t ∈ s'.sleepingThreadIds ∧ s.coreId t = 1

private theorem Tracked.of_limiters (h : Tracked s) (hc : Consistent none s')
    (hlisted : ∀ t, s'.status t ≠ .dead → t ∈ (s'.managers (s'.coreId t)).threadList)
    (hlimiters : s'.limiters = s.limiters) (hmode : s'.currentScheduleMode = s.currentScheduleMode) : Tracked s' where
  consistent := hc
  listed := hlisted
  unused := by
    rw [hlimiters, hmode]
    exact h.unused
  unready := by
    unfold sleepingThreadIds cpuLimiter
    rw [hlimiters, hmode]
    exact h.unready

private theorem Tracked.of_sameLife (h : Tracked s) (hc : Consistent none s') (hlife : SameLife s s')
    (hlimiters : s'.limiters = s.limiters) (hmode : s'.currentScheduleMode = s.currentScheduleMode) : Tracked s' := by
  refine h.of_limiters hc ?_ hlimiters hmode
  intro t ht
  rw [hlife.threadList, hlife.coreId]
  exact h.listed t fun hd => ht ((hlife.dead t).2 hd)

private theorem Quiet.of_sameLife (hlife : SameLife s s')
    (hstatus : ∀ t, s'.status t = .waitSleep → s.status t = .waitSleep) (hlimiters : s'.limiters = s.limiters)
    (hmode : s'.currentScheduleMode = s.currentScheduleMode) : Quiet s s' where
  status := hstatus
  coreId := fun t _ => congrFun hlife.coreId t
  ids := by
    unfold sleepingThreadIds cpuLimiter
    rw [hlimiters, hmode]

theorem cpuLimiter_modifyLimiter (f : CpuLimiter → CpuLimiter) : (s.modifyLimiter f).cpuLimiter = f s.cpuLimiter :=
  update_self ..

theorem limiters_modifyLimiter_of_ne (f : CpuLimiter → CpuLimiter) {m : Core1ScheduleMode}
    (hm : m ≠ s.currentScheduleMode) : (s.modifyLimiter f).limiters m = s.limiters m := update_of_ne hm ..

private theorem Tracked.modifyLimiter (h : Tracked s) {f : CpuLimiter → CpuLimiter}
    (hids : (f s.cpuLimiter).sleepingThreadIds = s.sleepingThreadIds)
    (hready : (f s.cpuLimiter).ready = false → s.cpuLimiter.ready = false) : Tracked (s.modifyLimiter f) where
  consistent := h.consistent.of_eq rfl rfl rfl rfl rfl rfl
  listed := h.listed
  unused := by
    intro m hm
    have hm' : m ≠ s.currentScheduleMode := hm
    rw [limiters_modifyLimiter_of_ne f hm']
    exact h.unused m hm'
  unready := by
    unfold sleepingThreadIds
    rw [cpuLimiter_modifyLimiter, hids]
    exact fun hr => h.unready (hready hr)

private theorem sleepingThreadIds_modifyLimiter {f : CpuLimiter → CpuLimiter}
    (hids : (f s.cpuLimiter).sleepingThreadIds = s.sleepingThreadIds) :
    (s.modifyLimiter f).sleepingThreadIds = s.sleepingThreadIds := by
  unfold sleepingThreadIds
  rw [cpuLimiter_modifyLimiter]
  exact hids

theorem Quiet.refl (s : Scheduler) : Quiet s s := ⟨fun _ => id, fun _ _ => rfl, rfl⟩

/-! Resuming a thread -/

theorem resumeFromWait_cases (s : Scheduler) (t : ThreadId) :
    s.resumeFromWait t = s ∨ s.resumeFromWait t = s.makeReady t := by
  unfold resumeFromWait
  cases s.status t with
  | ready => exact Or.inl rfl
  | running => exact Or.inl rfl
  | dead => exact Or.inl rfl
  | _ => exact Or.inr rfl

theorem status_makeReady (u : ThreadId) :
    (s.makeReady t).status u = if u = t then .ready else s.status u := status_setStatus ..

private theorem threadList_makeReady (s : Scheduler) (t : ThreadId) (c : Nat) :
    ((s.makeReady t).managers c).threadList = (s.managers c).threadList := by
  have hq : ((s.modifyQueue (s.coreId t) fun q => q.pushBack (s.currentPriority t) t).managers c).threadList =
      (s.managers c).threadList := (manager_modifyQueue _).2.1
  exact hq

private theorem Tracked.resumeFromWait (h : Tracked s) (t : ThreadId) :
    Tracked (s.resumeFromWait t) ∧ Quiet s (s.resumeFromWait t) := by
  have hlife : SameLife s (s.resumeFromWait t) := sameLife_resumeFromWait t
  have hc := h.consistent.resumeFromWait t
  rcases resumeFromWait_cases s t with heq | heq
  · rw [heq]
    exact ⟨h, Quiet.refl s⟩
  · rw [heq] at hlife hc ⊢
    refine ⟨h.of_sameLife hc hlife rfl rfl, Quiet.of_sameLife hlife ?_ rfl rfl⟩
    intro u hu
    rw [status_makeReady] at hu
    split at hu
    · cases hu
    · exact hu

private theorem status_wakeupSleeping (s : Scheduler) (t u : ThreadId) : (s.wakeupSleeping t).status u =
    if u = t ∧ u ∈ (s.managers 1).threadList ∧ s.status u = .waitSleep then .ready else s.status u := by
  unfold wakeupSleeping
  by_cases ht : t ∈ (s.managers 1).threadList ∧ s.status t = .waitSleep
  · rw [if_pos ht]
    unfold resumeFromWait
    rw [ht.2]
    rw [status_makeReady]
    by_cases hu : u = t
    · rw [if_pos hu, if_pos (by rw [hu]; exact ⟨rfl, ht⟩)]
    · rw [if_neg hu, if_neg (fun hc => hu hc.1)]
  · rw [if_neg ht, if_neg]
    rintro ⟨rfl, hc⟩
    exact ht hc

private theorem foldl_wakeupSleeping (ids : List ThreadId) : ∀ s : Scheduler,
    SameLife s (ids.foldl wakeupSleeping s) ∧ (ids.foldl wakeupSleeping s).limiters = s.limiters ∧
      (ids.foldl wakeupSleeping s).currentScheduleMode = s.currentScheduleMode ∧
      ∀ u, (ids.foldl wakeupSleeping s).status u =
        if u ∈ ids ∧ u ∈ (s.managers 1).threadList ∧ s.status u = .waitSleep then .ready else s.status u := by
  induction ids with
  | nil =>
    intro s
    refine ⟨SameLife.refl s, rfl, rfl, fun u => ?_⟩
    rfl
  | cons t ids ih =>
    intro s
    have hone : SameLife s (s.wakeupSleeping t) ∧ (s.wakeupSleeping t).limiters = s.limiters ∧
        (s.wakeupSleeping t).currentScheduleMode = s.currentScheduleMode := by
      unfold wakeupSleeping
      split
      · refine ⟨sameLife_resumeFromWait t, ?_⟩
        rcases resumeFromWait_cases s t with heq | heq
        · rw [heq]
          exact ⟨rfl, rfl⟩
        · rw [heq]
          exact ⟨rfl, rfl⟩
      · exact ⟨SameLife.refl s, rfl, rfl⟩
    obtain ⟨hlife, hlimiters, hmode, hstatus⟩ := ih (s.wakeupSleeping t)
    rw [List.foldl_cons]
    refine ⟨hone.1.trans hlife, hlimiters.trans hone.2.1, hmode.trans hone.2.2, fun u => ?_⟩
    rw [hstatus, hone.1.threadList]
    by_cases hu : u = t ∧ u ∈ (s.managers 1).threadList ∧ s.status u = .waitSleep
    · have hready : (s.wakeupSleeping t).status u = .ready := by
        rw [status_wakeupSleeping, if_pos hu]
      rw [hready, if_neg (fun hc => by cases hc.2.2), if_pos ⟨by rw [hu.1]; exact List.mem_cons_self, hu.2⟩]
    · have hsame : (s.wakeupSleeping t).status u = s.status u := by
        rw [status_wakeupSleeping, if_neg hu]
      have hiff : (u ∈ ids ∧ u ∈ (s.managers 1).threadList ∧ s.status u = .waitSleep) ↔
          (u ∈ t :: ids ∧ u ∈ (s.managers 1).threadList ∧ s.status u = .waitSleep) := by
        constructor
        · exact fun hc => ⟨List.mem_cons_of_mem t hc.1, hc.2⟩
        · rintro ⟨hmem, hc⟩
          exact ⟨(List.mem_cons.mp hmem).resolve_left fun hut => hu ⟨hut, hc⟩, hc⟩
      rw [hsame]
      simp only [hiff]

private theorem Tracked.wakeup (hc : Consistent none s)
    (hlisted : ∀ t, s.status t ≠ .dead → t ∈ (s.managers (s.coreId t)).threadList)
    (hunused : ∀ m, m ≠ s.currentScheduleMode → (s.limiters m).sleepingThreadIds = []) :
    Tracked s.wakeupSleepingThreads ∧ Drained s s.wakeupSleepingThreads := by
  obtain ⟨hlife, hlimiters, hmode, hstatus⟩ := foldl_wakeupSleeping s.sleepingThreadIds s
  have hids : s.wakeupSleepingThreads.sleepingThreadIds = [] := by
    unfold sleepingThreadIds wakeupSleepingThreads
    rw [cpuLimiter_modifyLimiter]
  refine ⟨⟨hc.wakeupSleepingThreads, ?_, ?_, fun _ => hids⟩, ?_, hids⟩
  · intro t ht
    have ht' : (s.sleepingThreadIds.foldl wakeupSleeping s).status t ≠ .dead := ht
    show t ∈ ((s.sleepingThreadIds.foldl wakeupSleeping s).managers
      ((s.sleepingThreadIds.foldl wakeupSleeping s).coreId t)).threadList
    rw [hlife.threadList, hlife.coreId]
    exact hlisted t fun hd => ht' ((hlife.dead t).2 hd)
  · intro m hm
    have hm' : m ≠ (s.sleepingThreadIds.foldl wakeupSleeping s).currentScheduleMode := hm
    have heq : s.wakeupSleepingThreads.limiters m = (s.sleepingThreadIds.foldl wakeupSleeping s).limiters m :=
      limiters_modifyLimiter_of_ne _ hm'
    rw [heq, hlimiters]
    rw [hmode] at hm'
    exact hunused m hm'
  · intro t ht
    have ht' : (s.sleepingThreadIds.foldl wakeupSleeping s).status t = .waitSleep := ht
    rw [hstatus] at ht'
    split at ht'
    · cases ht'
    · rename_i hnot
      refine ⟨ht', fun hcore hmem => hnot ⟨hmem, ?_, ht'⟩⟩
      rw [← hcore]
      apply hlisted t
      rw [ht']
      decide

section

variable (h : Tracked s)

include h

private theorem Tracked.wakeup_modifyLimiter {f : CpuLimiter → CpuLimiter}
    (hids : (f s.cpuLimiter).sleepingThreadIds = s.sleepingThreadIds) :
    Tracked (s.modifyLimiter f).wakeupSleepingThreads ∧ Drained s (s.modifyLimiter f).wakeupSleepingThreads := by
  have hunused : ∀ m, m ≠ s.currentScheduleMode → ((s.modifyLimiter f).limiters m).sleepingThreadIds = [] := by
    intro m hm
    rw [limiters_modifyLimiter_of_ne f hm]
    exact h.unused m hm
  have hc : Consistent none (s.modifyLimiter f) := h.consistent.of_eq rfl rfl rfl rfl rfl rfl
  obtain ⟨htracked, hstatus, hempty⟩ := Tracked.wakeup hc h.listed hunused
  refine ⟨htracked, ?_, hempty⟩
  intro t ht
  obtain ⟨hst, hnot⟩ := hstatus t ht
  rw [sleepingThreadIds_modifyLimiter hids] at hnot
  exact ⟨hst, hnot⟩

private theorem Tracked.endLimiter : Tracked s.endLimiter ∧ Drained s s.endLimiter := by
  unfold Scheduler.endLimiter
  by_cases hr : s.cpuLimiter.ready = true
  · rw [if_pos hr]
    exact h.wakeup_modifyLimiter rfl
  · rw [if_neg hr]
    have hids := h.unready (Bool.eq_false_iff.mpr hr)
    refine ⟨h, fun t ht => ⟨ht, fun _ => ?_⟩, hids⟩
    rw [hids]
    exact List.not_mem_nil

private theorem Tracked.onTick : Tracked s.onTick ∧ Drained s s.onTick := by
  obtain ⟨htracked, hdrained⟩ := Tracked.wakeup h.consistent h.listed h.unused
  unfold Scheduler.onTick changeState
  refine ⟨htracked.modifyLimiter rfl id, hdrained.status, ?_⟩
  exact (sleepingThreadIds_modifyLimiter rfl).trans hdrained.ids

private theorem Tracked.start :
    Tracked s.start ∧ s.start.status = s.status ∧ s.start.sleepingThreadIds = s.sleepingThreadIds := by
  unfold Scheduler.start
  by_cases hr : s.cpuLimiter.ready = true
  · rw [if_pos hr]
    exact ⟨h, rfl, rfl⟩
  · rw [if_neg hr]
    exact ⟨h.modifyLimiter rfl (fun hc => by cases hc), rfl, sleepingThreadIds_modifyLimiter rfl⟩

private theorem Tracked.setScheduleMode (mode : Core1ScheduleMode) :
    Tracked (s.setScheduleMode mode) ∧ Drained s (s.setScheduleMode mode) := by
  obtain ⟨htracked, hdrained⟩ := h.endLimiter
  -- no limiter has ids after the end of the one in use
  have hempty : ∀ m, (s.endLimiter.limiters m).sleepingThreadIds = [] := by
    intro m
    by_cases hm : m = s.endLimiter.currentScheduleMode
    · rw [hm]
      exact hdrained.ids
    · exact htracked.unused m hm
  have hmode : Tracked { s.endLimiter with currentScheduleMode := mode } :=
    ⟨htracked.consistent.of_eq rfl rfl rfl rfl rfl rfl, htracked.listed, fun m _ => hempty m, fun _ => hempty mode⟩
  obtain ⟨hstart, hst, hids⟩ := hmode.start
  refine ⟨hstart, fun t ht => hdrained.status t ?_, hids.trans (hempty mode)⟩
  have hst' := congrFun hst t
  exact hst'.symm.trans ht

private theorem Tracked.updateAppCpuLimit (value : Int) : Tracked (s.updateAppCpuLimit value) ∧
    (Quiet s (s.updateAppCpuLimit value) ∨ Drained s (s.updateAppCpuLimit value)) := by
  unfold Scheduler.updateAppCpuLimit
  by_cases hr : s.cpuLimiter.ready = true
  · rw [if_pos hr]
    by_cases hv : value = preemptionDisabled
    · rw [if_pos hv]
      obtain ⟨htracked, hdrained⟩ := h.wakeup_modifyLimiter
        (f := fun l => { l with appCpuTime := value, active := false }) rfl
      exact ⟨htracked, Or.inr hdrained⟩
    · rw [if_neg hv]
      have hset : Tracked (s.modifyLimiter fun l => { l with appCpuTime := value, active := true }) :=
        h.modifyLimiter rfl id
      refine ⟨hset.modifyLimiter rfl id, Or.inl ⟨fun _ => id, fun _ _ => rfl, ?_⟩⟩
      exact (sleepingThreadIds_modifyLimiter rfl).trans (sleepingThreadIds_modifyLimiter rfl)
  · rw [if_neg hr]
    exact ⟨h, Or.inl (Quiet.refl s)⟩

/-! The other operations -/

private theorem Tracked.createThread {priority : Nat} (hp : priority ≤ threadPrioLowest)
    (core process : Nat) (category : ResourceLimitCategory) (ready : Bool) :
    Tracked (s.createThread s.nextObjectId priority core process category ready) ∧
      Quiet s (s.createThread s.nextObjectId priority core process category ready) := by
  have hdead : s.status s.nextObjectId = .dead := h.consistent.dead_of_le (Nat.le_refl _)
  obtain ⟨s', hs'⟩ : ∃ s', s' = s.createThread s.nextObjectId priority core process category ready := ⟨_, rfl⟩
  have hview : (∀ t, t ≠ s.nextObjectId → s'.status t = s.status t) ∧ s'.status s.nextObjectId ≠ .waitSleep ∧
      s'.coreId = update s.coreId s.nextObjectId core ∧
      (∀ c, (s'.managers c).threadList =
        if c = core then (s.managers core).threadList ++ [s.nextObjectId] else (s.managers c).threadList) ∧
      s'.limiters = s.limiters ∧ s'.currentScheduleMode = s.currentScheduleMode := by
    have hlist : ∀ c, ((s.modifyManager core fun m => { m with
        threadList := m.threadList ++ [s.nextObjectId], readyQueue := m.readyQueue.prepare priority }).managers
        c).threadList =
        if c = core then (s.managers core).threadList ++ [s.nextObjectId] else (s.managers c).threadList := by
      intro c
      rw [managers_modifyManager]
      split <;> rfl
    rw [hs']
    unfold Scheduler.createThread
    cases ready with
    | false =>
      refine ⟨fun t ht => update_of_ne ht .., ?_, rfl, hlist, rfl, rfl⟩
      have hself : update s.status s.nextObjectId .dormant s.nextObjectId = .dormant :=
        update_self ..
      exact fun heq => by cases hself.symm.trans heq
    | true =>
      refine ⟨fun t ht => ?_, ?_, rfl, fun c => ?_, rfl, rfl⟩
      · rw [if_pos rfl, status_makeReady, if_neg ht]
        exact update_of_ne ht ..
      · rw [if_pos rfl, status_makeReady, if_pos rfl]
        decide
      · rw [if_pos rfl, threadList_makeReady]
        exact hlist c
  have hc := h.consistent.createThread rfl hp core process category ready
  rw [← hs'] at hc ⊢
  obtain ⟨hstatus, hnew, hcore, hlist, hlimiters, hmode⟩ := hview
  have hcoreId : ∀ t, t ≠ s.nextObjectId → s'.coreId t = s.coreId t := by
    intro t ht
    rw [hcore]
    exact update_of_ne ht ..
  refine ⟨h.of_limiters hc ?_ hlimiters hmode, ?_, ?_, ?_⟩
  · intro t ht
    by_cases hnt : t = s.nextObjectId
    · have hct : s'.coreId t = core := by
        rw [hcore, hnt]
        exact update_self ..
      rw [hct, hlist, if_pos rfl, hnt]
      exact List.mem_append_right _ List.mem_cons_self
    · rw [hstatus t hnt] at ht
      have hmem := h.listed t ht
      rw [hcoreId t hnt, hlist]
      split
      · rename_i hct
        rw [hct] at hmem
        exact List.mem_append_left _ hmem
      · exact hmem
  · intro t ht
    by_cases hnt : t = s.nextObjectId
    · exact absurd (hnt ▸ ht) hnew
    · exact (hstatus t hnt).symm.trans ht
  · intro t ht
    exact hcoreId t fun hnt => ht (hnt ▸ hdead)
  · unfold sleepingThreadIds cpuLimiter
    rw [hlimiters, hmode]

private theorem Tracked.terminateThread (t : ThreadId) :
    Tracked (s.terminateThread t) ∧ Quiet s (s.terminateThread t) := by
  have hkill : (∀ u, (s.kill t).status u = if u = t then .dead else s.status u) ∧ (s.kill t).coreId = s.coreId ∧
      (∀ c, ((s.kill t).managers c).threadList = (s.managers c).threadList) ∧ (s.kill t).limiters = s.limiters ∧
      (s.kill t).currentScheduleMode = s.currentScheduleMode := by
    unfold Scheduler.kill
    dsimp only
    refine ⟨fun u => ?_, ?_⟩
    · rw [status_setStatus]
      split
      · rfl
      · split <;> rfl
    · split
      · refine ⟨rfl, fun c => ?_, rfl, rfl⟩
        have hq : (((s.unscheduleWakeup t).modifyQueue (s.coreId t) fun q =>
            q.remove (s.currentPriority t) t).managers c).threadList = (s.managers c).threadList :=
          (manager_modifyQueue _).2.1
        exact hq
      · exact ⟨rfl, fun c => rfl, rfl, rfl⟩
  obtain ⟨hstatus, hcoreId, hlist, hlimiters, hmode⟩ := hkill
  have hc : Consistent none (s.terminateThread t) := (h.consistent.kill t).unlist _ t
  refine ⟨h.of_limiters hc ?_ hlimiters hmode, ?_, fun u _ => congrFun hcoreId u, ?_⟩
  · intro u hu
    have hu' : (s.kill t).status u ≠ .dead := hu
    rw [hstatus] at hu'
    split at hu'
    · exact absurd rfl hu'
    · rename_i hne
      have hmem := h.listed u hu'
      show u ∈ (((s.kill t).unlist (s.coreId t) t).managers ((s.kill t).coreId u)).threadList
      rw [hcoreId]
      unfold unlist
      rw [managers_modifyManager]
      split
      · rename_i hct
        rw [hct] at hmem
        refine List.mem_filter.mpr ⟨?_, by simpa using hne⟩
        rw [hlist]
        exact hmem
      · rw [hlist]
        exact hmem
  · intro u hu
    have hu' : (s.kill t).status u = .waitSleep := hu
    rw [hstatus] at hu'
    split at hu'
    · cases hu'
    · exact hu'
  · show ((s.kill t).limiters (s.kill t).currentScheduleMode).sleepingThreadIds = _
    rw [hlimiters, hmode]
    rfl

private theorem Tracked.setStatus {status : ThreadStatus} (hready : s.status t ≠ .ready)
    (hlive : s.status t ≠ .dead) (hdead : status ≠ .dead) (hs : status ≠ .ready) (hr : status ≠ .running) :
    Tracked (s.setStatus t status) := by
  have hc : Consistent none (s.setStatus t status) :=
    h.consistent.setStatus (Or.inl hready) hs hr (fun _ => h.consistent.created t hlive) fun _ _ => Iff.rfl
  exact h.of_sameLife hc (sameLife_setStatus hlive hdead) rfl rfl

private theorem Tracked.wakeAfterDelay (t : ThreadId) (nanoseconds : Int) :
    Tracked (s.wakeAfterDelay t nanoseconds) := by
  unfold Scheduler.wakeAfterDelay
  split
  · exact h
  · exact h.of_limiters (h.consistent.of_eq rfl rfl rfl rfl rfl rfl) h.listed rfl rfl

end

private theorem wakeAfterDelay_frame (s : Scheduler) (t : ThreadId) (nanoseconds : Int) :
    (s.wakeAfterDelay t nanoseconds).status = s.status ∧ (s.wakeAfterDelay t nanoseconds).coreId = s.coreId ∧
      (s.wakeAfterDelay t nanoseconds).sleepingThreadIds = s.sleepingThreadIds := by
  unfold Scheduler.wakeAfterDelay
  split
  · exact ⟨rfl, rfl, rfl⟩
  · exact ⟨rfl, rfl, rfl⟩

private theorem Tracked.waitForObject (h : Tracked s) (core : Nat) (status : ThreadStatus) (nanoseconds : Int) :
    Tracked (s.waitForObject core status nanoseconds) ∧ Quiet s (s.waitForObject core status nanoseconds) := by
  unfold Scheduler.waitForObject
  split
  · exact ⟨h, Quiet.refl s⟩
  · rename_i t _
    split
    · rename_i hc
      obtain ⟨hrun, hstatus⟩ := hc
      have hwait : status ≠ .dead ∧ status ≠ .ready ∧ status ≠ .running ∧ status ≠ .waitSleep := by
        refine ⟨?_, ?_, ?_, ?_⟩ <;> rintro rfl <;> revert hstatus <;> decide
      obtain ⟨hdead, hready, hrunning, hsleep⟩ := hwait
      have hset : Tracked (s.setStatus t status) :=
        h.setStatus (by rw [hrun]; decide) (by rw [hrun]; decide) hdead hready hrunning
      obtain ⟨hst, hcore, hids⟩ := wakeAfterDelay_frame (s.setStatus t status) t nanoseconds
      refine ⟨hset.wakeAfterDelay t nanoseconds, fun u hu => ?_, fun u _ => congrFun hcore u, hids⟩
      rw [hst, status_setStatus] at hu
      split at hu
      · exact absurd hu hsleep
      · exact hu
    · exact ⟨h, Quiet.refl s⟩

private theorem Tracked.signalThread (h : Tracked s) (t : ThreadId) :
    Tracked (s.signalThread t) ∧ Quiet s (s.signalThread t) := by
  unfold Scheduler.signalThread
  split
  · exact h.resumeFromWait t
  · exact ⟨h, Quiet.refl s⟩

private theorem Tracked.threadWakeupCallback (h : Tracked s) (t : ThreadId) :
    Tracked (s.threadWakeupCallback t) ∧ Quiet s (s.threadWakeupCallback t) := by
  unfold Scheduler.threadWakeupCallback
  split
  · exact ⟨h, Quiet.refl s⟩
  · have hev : Tracked { s with wakeupEvents := update s.wakeupEvents t (s.wakeupEvents t - 1) } :=
      h.of_limiters (h.consistent.of_eq rfl rfl rfl rfl rfl rfl) h.listed rfl rfl
    obtain ⟨htracked, hstatus, hcore, hids⟩ := hev.resumeFromWait t
    exact ⟨htracked, hstatus, hcore, hids⟩

private theorem Tracked.setThreadPriority (h : Tracked s) (t : ThreadId) (priority : Nat) :
    ∃ s', s.exec (.setThreadPriority t priority) = .ok s' ∧ Tracked s' ∧ Quiet s s' := by
  have hexec : ∃ s', s.exec (.setThreadPriority t priority) = .ok s' ∧ Consistent none s' := h.consistent.exec trivial
  obtain ⟨s', hs', hc⟩ := hexec
  refine ⟨s', hs', ?_⟩
  unfold Scheduler.exec at hs'
  dsimp only at hs'
  split at hs'
  · rename_i hp
    unfold setPriority at hs'
    rw [if_pos hp] at hs'
    obtain rfl := Except.ok.inj hs'
    have hlife : SameLife s (s.boostPriority t priority) := sameLife_boostPriority t priority
    have hframe : (s.boostPriority t priority).status = s.status ∧
        (s.boostPriority t priority).limiters = s.limiters ∧
        (s.boostPriority t priority).currentScheduleMode = s.currentScheduleMode := by
      unfold boostPriority
      split
      · exact ⟨rfl, rfl, rfl⟩
      · exact ⟨rfl, rfl, rfl⟩
    obtain ⟨hst, hlimiters, hmode⟩ := hframe
    have hlife' : SameLife s { s.boostPriority t priority with
        nominalPriority := update s.nominalPriority t priority } :=
      ⟨hlife.dead, hlife.ownerProcess, hlife.coreId, hlife.nextObjectId, hlife.threadList⟩
    exact ⟨h.of_sameLife hc hlife' hlimiters hmode,
      Quiet.of_sameLife hlife' (fun u hu => (congrFun hst u).symm.trans hu) hlimiters hmode⟩
  · obtain rfl := Except.ok.inj hs'
    exact ⟨h, Quiet.refl s⟩

/-! Parking -/

private theorem Parks.of_putToSleep {core : Nat} {q : ThreadQueueList ThreadId}
    (hsleep : s.status t ≠ .waitSleep) (hlimit : s.limited core t = true) (hcore : s.coreId t = core)
    (h : Parks ((s.modifyQueue core fun _ => q).putToSleep t) s') : Parks s s' := by
  obtain ⟨s₁, hs₁⟩ : ∃ s₁, s₁ = (s.modifyQueue core fun _ => q).putToSleep t := ⟨_, rfl⟩
  have hst : ∀ u, s₁.status u = if u = t then .waitSleep else s.status u := by
    intro u
    rw [hs₁]
    exact status_setStatus _ u
  have hl : s₁.cpuLimiter = { s.cpuLimiter with sleepingThreadIds := s.sleepingThreadIds ++ [t] } := by
    rw [hs₁]
    exact cpuLimiter_modifyLimiter _
  have hids : s₁.sleepingThreadIds = s.sleepingThreadIds ++ [t] := by
    unfold sleepingThreadIds at hl ⊢
    rw [hl]
  have hview : s₁.currentScheduleMode = s.currentScheduleMode ∧ s₁.coreId = s.coreId ∧
      ∀ m, m ≠ s.currentScheduleMode → s₁.limiters m = s.limiters m := by
    rw [hs₁]
    exact ⟨rfl, rfl, fun m hm => update_of_ne hm ..⟩
  obtain ⟨hmode, hcoreId, hother⟩ := hview
  rw [← hs₁] at h
  -- the limiter puts threads to sleep on core 1 only, and only when it is ready
  have hlim : core = 1 ∧ s.cpuLimiter.ready = true := by
    unfold limited timeLimited at hlimit
    simp only [Bool.and_eq_true, decide_eq_true_eq] at hlimit
    exact ⟨hlimit.1, hlimit.2.1.1.1⟩
  constructor
  case mode => exact h.mode.trans hmode
  case other =>
    intro m hm
    rw [h.other m (by rw [hmode]; exact hm)]
    exact hother m hm
  case ready =>
    rw [h.ready, hl]
  case grows =>
    intro u hu
    apply h.grows u
    rw [hids]
    exact List.mem_append_left _ hu
  case fresh =>
    intro u hu
    by_cases hut : u = t
    · rw [hut]
      exact Or.inr hsleep
    · rcases h.fresh u hu with hu | hu
      · rw [hids] at hu
        rcases List.mem_append.mp hu with hu | hu
        · exact Or.inl hu
        · exact absurd (List.mem_singleton.mp hu) hut
      · rw [hst, if_neg hut] at hu
        exact Or.inr hu
  case unready =>
    intro hr
    rw [hlim.2] at hr
    cases hr
  case status =>
    intro u hu
    rcases h.status u hu with hu' | ⟨hmem, hu'⟩
    · rw [hst] at hu'
      split at hu'
      · rename_i hut
        right
        rw [hut]
        refine ⟨h.grows t ?_, hcore.trans hlim.1⟩
        rw [hids]
        exact List.mem_append_right _ List.mem_cons_self
      · exact Or.inl hu'
    · rw [hcoreId] at hu'
      exact Or.inr ⟨hmem, hu'⟩

private theorem Round.awake {core : Nat} (h : Consistent none s) {l : List (Nat × ThreadId)}
    (hround : Round s core (some t) l) : s.status t ≠ .waitSleep ∧ s.coreId t = core := by
  cases hround with
  | keep hnext hl hbest =>
    obtain ⟨hcur, hrun, -⟩ := keepsRunning_eq_some.1 hnext.symm
    refine ⟨?_, (h.current core t hcur).1⟩
    rw [hrun]
    decide
  | take p u l₁ l₂ hnext hl hl' hskip hcan hbetter =>
    have hmem : (p, u) ∈ s.entries core := by
      rw [hl]
      exact List.mem_append_right _ List.mem_cons_self
    obtain ⟨hready, hcore, -⟩ := h.mem_entries.mp hmem
    rw [Option.some_inj.mp hnext]
    refine ⟨?_, hcore⟩
    rw [hready]
    decide

private theorem Consistent.parks_of_pop (h : Consistent none s) {core n : Nat} {next : Option ThreadId}
    (hpop : Scheduler.popNextReadyThread core n s = .ok (next, s')) : Parks s s' := by
  refine Consistent.pop_induction (P := fun s _ s' => Parks s s') ?_ ?_ n s h next s' hpop
  · intro s found q _ _ _
    exact ⟨rfl, fun _ _ => rfl, rfl, fun _ => id, fun _ => Or.inl, fun _ => rfl, fun _ => Or.inl⟩
  · intro s t q next s' h hround hlimit ih
    obtain ⟨hsleep, hcore⟩ := hround.awake h
    exact Parks.of_putToSleep hsleep hlimit hcore ih

private theorem switchContext_frame (s : Scheduler) (core : Nat) (next : Option ThreadId) :
    (∀ t, (s.switchContext core next).status t = .waitSleep → s.status t = .waitSleep) ∧
      (s.switchContext core next).limiters = s.limiters ∧
      (s.switchContext core next).currentScheduleMode = s.currentScheduleMode := by
  have hleave : (∀ t, (s.leaveThread core).status t = .waitSleep → s.status t = .waitSleep) ∧
      (s.leaveThread core).limiters = s.limiters ∧
      (s.leaveThread core).currentScheduleMode = s.currentScheduleMode := by
    unfold leaveThread
    split
    · exact ⟨fun _ => id, rfl, rfl⟩
    · split
      · refine ⟨fun t ht => ?_, rfl, rfl⟩
        rw [status_setStatus] at ht
        split at ht
        · cases ht
        · exact ht
      · exact ⟨fun _ => id, rfl, rfl⟩
  obtain ⟨hstatus, hlimiters, hmode⟩ := hleave
  unfold switchContext
  cases next with
  | none => exact ⟨hstatus, hlimiters, hmode⟩
  | some u =>
    dsimp only
    unfold enterThread
    split
    · exact ⟨hstatus, hlimiters, hmode⟩
    · refine ⟨fun t ht => hstatus t ?_, hlimiters, hmode⟩
      rw [status_setStatus] at ht
      split at ht
      · cases ht
      · exact ht

private theorem Tracked.reschedule (h : Tracked s) (core : Nat) :
    ∃ s', s.reschedule core = .ok s' ∧ Tracked s' ∧ Parks s s' ∧ SameLife s s' := by
  obtain ⟨s', hs', hc, hlife⟩ := h.consistent.reschedule core
  have hparks : Parks s s' := by
    obtain ⟨⟨next, s₁⟩, hpop, hret⟩ := ok_of_bind hs'
    have h₁ := h.consistent.parks_of_pop hpop
    dsimp only at hret
    split at hret
    · cases hret
      exact h₁
    · obtain rfl := Except.ok.inj hret
      obtain ⟨hstatus, hlimiters, hmode⟩ := switchContext_frame s₁ core next
      have hl : (s₁.switchContext core next).cpuLimiter = s₁.cpuLimiter := by
        unfold cpuLimiter
        rw [hlimiters, hmode]
      have hids : (s₁.switchContext core next).sleepingThreadIds = s₁.sleepingThreadIds := by
        unfold sleepingThreadIds
        rw [hl]
      refine ⟨hmode.trans h₁.mode, fun m hm => ?_, ?_, ?_, ?_, ?_, ?_⟩
      · rw [hlimiters]
        exact h₁.other m hm
      · rw [hl]
        exact h₁.ready
      · rw [hids]
        exact h₁.grows
      · rw [hids]
        exact h₁.fresh
      · rw [hids]
        exact h₁.unready
      · rw [hids]
        exact fun t ht => h₁.status t (hstatus t ht)
  refine ⟨s', hs', ⟨hc, ?_, ?_, ?_⟩, hparks, hlife⟩
  · intro t ht
    rw [hlife.threadList, hlife.coreId]
    exact h.listed t fun hd => ht ((hlife.dead t).2 hd)
  · intro m hm
    rw [hparks.mode] at hm
    rw [hparks.other m hm]
    exact h.unused m hm
  · intro hr
    rw [hparks.ready] at hr
    rw [hparks.unready hr]
    exact h.unready hr

private theorem Tracked.sleepThread (h : Tracked s) {core : Nat} (hcur : (s.managers core).currentThread = some t)
    (hrun : s.status t = .running) (nanoseconds : Int) :
    ∃ pending s', s.sleepThread core nanoseconds = .ok (pending, s') ∧ Tracked s' ∧
      (∀ u, s'.status u = .waitSleep → s.status u = .waitSleep ∨ u = t) ∧ s'.coreId = s.coreId ∧
      s'.sleepingThreadIds = s.sleepingThreadIds := by
  have hready : ∃ b, (if nanoseconds = 0 then s.haveReadyThreads core else .ok true) = .ok b := by
    split
    · unfold haveReadyThreads ThreadQueueList.getFirst
      cases hq : (s.managers core).readyQueue.seek numQueues (s.managers core).readyQueue.first with
      | none => exact absurd hq (h.consistent.wf core).seek_ne_none
      | some first => exact ⟨_, rfl⟩
    · exact ⟨true, rfl⟩
  obtain ⟨b, hb⟩ := hready
  unfold Scheduler.sleepThread
  rw [hb, ok_bind, hcur]
  split
  · exact ⟨false, s, rfl, h, fun u => Or.inl, rfl, rfl⟩
  · split
    · exact ⟨true, s, rfl, h, fun u => Or.inl, rfl, rfl⟩
    · have hset : Tracked (s.setStatus t .waitSleep) :=
        h.setStatus (by rw [hrun]; decide) (by rw [hrun]; decide) (by decide) (by decide) (by decide)
      obtain ⟨hst, hcore, hids⟩ := wakeAfterDelay_frame (s.setStatus t .waitSleep) t nanoseconds
      refine ⟨true, _, rfl, hset.wakeAfterDelay t nanoseconds, fun u hu => ?_, hcore, hids⟩
      rw [hst, status_setStatus] at hu
      split at hu
      · rename_i hut
        exact Or.inr hut
      · exact Or.inl hu

end Steps

end Scheduler

namespace LimiterRun

open Scheduler

/-- The invariant of a run: the limiter has the ids of the parked threads, and of none that sleeps since `SleepThread`. -/
structure Ok (g : LimiterRun) : Prop where
  tracked : Tracked g.sched
  parked : ∀ t, g.parked t = true → t ∈ g.sched.sleepingThreadIds ∧ g.sched.status t = .waitSleep ∧ g.sched.coreId t = 1
  asleep : ∀ t, g.asleep t = true → t ∉ g.sched.sleepingThreadIds ∧ g.sched.status t = .waitSleep
  cutShort : g.cutShort = []

section Invariant

variable {g : LimiterRun} {s : Scheduler}

theorem ok_empty : Ok {} where
  tracked := ⟨consistent_empty, fun _ ht => absurd rfl ht, fun _ _ => rfl, fun _ => rfl⟩
  parked := fun _ ht => by cases ht
  asleep := fun _ ht => by cases ht
  cutShort := rfl

private theorem parked_advance {t : ThreadId} (ht : (g.advance s).parked t = true) :
    g.parked t = true ∧ s.status t = .waitSleep := by
  have ht' : (g.parked t && s.status t == .waitSleep) = true := ht
  simpa using ht'

private theorem asleep_advance {t : ThreadId} (ht : (g.advance s).asleep t = true) :
    g.asleep t = true ∧ s.status t = .waitSleep := by
  have ht' : (g.asleep t && s.status t == .waitSleep) = true := ht
  simpa using ht'

private theorem fellAsleep_eq_true {t : ThreadId} (ht : g.fellAsleep s t = true) :
    g.sched.status t ≠ .waitSleep ∧ s.status t = .waitSleep := by
  unfold fellAsleep at ht
  simpa using ht

private theorem Ok.quiet (h : Ok g) (htracked : Tracked s) (hquiet : Quiet g.sched s) : Ok (g.advance s) where
  tracked := htracked
  parked := by
    intro t ht
    obtain ⟨hparked, hst⟩ := parked_advance ht
    obtain ⟨hmem, hsleep, hcore⟩ := h.parked t hparked
    refine ⟨?_, hst, ?_⟩
    · show t ∈ s.sleepingThreadIds
      rw [hquiet.ids]
      exact hmem
    · show s.coreId t = 1
      rw [hquiet.coreId t (by rw [hsleep]; decide)]
      exact hcore
  asleep := by
    intro t ht
    obtain ⟨hasleep, hst⟩ := asleep_advance ht
    refine ⟨?_, hst⟩
    show t ∉ s.sleepingThreadIds
    rw [hquiet.ids]
    exact (h.asleep t hasleep).1
  cutShort := h.cutShort

private theorem Ok.drained (h : Ok g) (htracked : Tracked s) (hdrained : Drained g.sched s) : Ok (g.advance s) where
  tracked := htracked
  parked := by
    intro t ht
    obtain ⟨hparked, hst⟩ := parked_advance ht
    obtain ⟨hmem, -, hcore⟩ := h.parked t hparked
    exact absurd hmem ((hdrained.status t hst).2 hcore)
  asleep := by
    intro t ht
    refine ⟨?_, (asleep_advance ht).2⟩
    show t ∉ s.sleepingThreadIds
    rw [hdrained.ids]
    exact List.not_mem_nil
  cutShort := h.cutShort

private theorem Ok.wake (h : Ok g) (hadvance : Ok (g.advance s)) : Ok (g.wake s) := by
  refine ⟨hadvance.tracked, hadvance.parked, hadvance.asleep, ?_⟩
  show g.cutShort ++ _ = []
  rw [h.cutShort, List.nil_append, List.filter_eq_nil_iff]
  intro t ht hc
  rw [Bool.and_eq_true] at hc
  exact (h.asleep t hc.1).1 ht

private theorem Ok.reschedule (h : Ok g) (htracked : Tracked s) (hparks : Parks g.sched s)
    (hlife : SameLife g.sched s) :
    Ok { g.advance s with parked := fun u => (g.advance s).parked u || g.fellAsleep s u } where
  tracked := htracked
  parked := by
    intro t ht
    have hcore : s.coreId t = g.sched.coreId t := congrFun hlife.coreId t
    rcases (Bool.or_eq_true _ _).mp ht with ht | ht
    · obtain ⟨hparked, hst⟩ := parked_advance ht
      obtain ⟨hmem, -, hone⟩ := h.parked t hparked
      exact ⟨hparks.grows t hmem, hst, hcore.trans hone⟩
    · obtain ⟨hawake, hst⟩ := fellAsleep_eq_true ht
      obtain ⟨hmem, hone⟩ := (hparks.status t hst).resolve_left hawake
      exact ⟨hmem, hst, hcore.trans hone⟩
  asleep := by
    intro t ht
    obtain ⟨hasleep, hst⟩ := asleep_advance ht
    obtain ⟨hmem, hsleep⟩ := h.asleep t hasleep
    refine ⟨fun hnew => ?_, hst⟩
    rcases hparks.fresh t hnew with hold | hawake
    · exact hmem hold
    · exact hawake hsleep
  cutShort := h.cutShort

private theorem Ok.sleepThread (h : Ok g) {t : ThreadId} (htracked : Tracked s)
    (hstatus : ∀ u, s.status u = .waitSleep → g.sched.status u = .waitSleep ∨ u = t)
    (hcore : s.coreId = g.sched.coreId) (hids : s.sleepingThreadIds = g.sched.sleepingThreadIds)
    (hfresh : t ∉ g.sched.sleepingThreadIds) :
    Ok { g.advance s with asleep := fun u => (g.advance s).asleep u || g.fellAsleep s u } where
  tracked := htracked
  parked := by
    intro u hu
    obtain ⟨hparked, hst⟩ := parked_advance hu
    obtain ⟨hmem, -, hone⟩ := h.parked u hparked
    refine ⟨?_, hst, (congrFun hcore u).trans hone⟩
    show u ∈ s.sleepingThreadIds
    rw [hids]
    exact hmem
  asleep := by
    intro u hu
    show u ∉ s.sleepingThreadIds ∧ s.status u = .waitSleep
    rw [hids]
    rcases (Bool.or_eq_true _ _).mp hu with hu | hu
    · obtain ⟨hasleep, hst⟩ := asleep_advance hu
      exact ⟨(h.asleep u hasleep).1, hst⟩
    · obtain ⟨hawake, hst⟩ := fellAsleep_eq_true hu
      rw [(hstatus u hst).resolve_left hawake]
      exact ⟨hfresh, (hstatus u hst).resolve_left hawake ▸ hst⟩
  cutShort := h.cutShort

theorem Ok.exec (h : Ok g) {op : LimiterOp} (hop : Fresh g op) : ∃ g', g.exec op = .ok g' ∧ Ok g' := by
  cases op with
  | setScheduleMode mode =>
    obtain ⟨htracked, hdrained⟩ := h.tracked.setScheduleMode mode
    exact ⟨_, rfl, h.wake (h.drained htracked hdrained)⟩
  | endLimiter =>
    obtain ⟨htracked, hdrained⟩ := h.tracked.endLimiter
    exact ⟨_, rfl, h.wake (h.drained htracked hdrained)⟩
  | updateAppCpuLimit value =>
    obtain ⟨htracked, hquiet | hdrained⟩ := h.tracked.updateAppCpuLimit value
    · exact ⟨_, rfl, h.wake (h.quiet htracked hquiet)⟩
    · exact ⟨_, rfl, h.wake (h.drained htracked hdrained)⟩
  | onTick =>
    unfold LimiterRun.exec
    dsimp only
    split
    · obtain ⟨htracked, hdrained⟩ := h.tracked.onTick
      exact ⟨_, rfl, h.wake (h.drained htracked hdrained)⟩
    · exact ⟨g, rfl, h⟩
  | setLimitValue category value =>
    refine ⟨_, rfl, h.quiet ?_ ⟨fun _ => id, fun _ _ => rfl, rfl⟩⟩
    exact ⟨h.tracked.consistent.of_eq rfl rfl rfl rfl rfl rfl, h.tracked.listed, h.tracked.unused, h.tracked.unready⟩
  | createThread priority core process category ready =>
    unfold LimiterRun.exec Scheduler.exec
    dsimp only
    split
    · rename_i hp
      obtain ⟨htracked, hquiet⟩ := h.tracked.createThread hp core process category ready
      exact ⟨_, rfl, h.quiet htracked hquiet⟩
    · exact ⟨_, rfl, h.quiet h.tracked (Quiet.refl _)⟩
  | terminateThread t =>
    obtain ⟨htracked, hquiet⟩ := h.tracked.terminateThread t
    exact ⟨_, rfl, h.quiet htracked hquiet⟩
  | setThreadPriority t priority =>
    obtain ⟨s', hs', htracked, hquiet⟩ := h.tracked.setThreadPriority t priority
    refine ⟨g.advance s', ?_, h.quiet htracked hquiet⟩
    unfold LimiterRun.exec
    dsimp only
    rw [hs']
    rfl
  | setUnscheduleMode t mode value =>
    refine ⟨_, rfl, h.quiet ?_ ⟨fun _ => id, fun _ _ => rfl, rfl⟩⟩
    exact ⟨h.tracked.consistent.of_eq rfl rfl rfl rfl rfl rfl, h.tracked.listed, h.tracked.unused, h.tracked.unready⟩
  | waitForObject core status nanoseconds =>
    obtain ⟨htracked, hquiet⟩ := h.tracked.waitForObject core status nanoseconds
    exact ⟨_, rfl, h.quiet htracked hquiet⟩
  | signal t =>
    obtain ⟨htracked, hquiet⟩ := h.tracked.signalThread t
    exact ⟨_, rfl, h.quiet htracked hquiet⟩
  | timeout t =>
    obtain ⟨htracked, hquiet⟩ := h.tracked.threadWakeupCallback t
    exact ⟨_, rfl, h.quiet htracked hquiet⟩
  | sleepThread core nanoseconds =>
    unfold LimiterRun.exec
    dsimp only
    split
    · exact ⟨g, rfl, h⟩
    · rename_i t hcur
      split
      · rename_i hrun
        obtain ⟨pending, s', hs', htracked, hstatus, hcore, hids⟩ := h.tracked.sleepThread hcur hrun nanoseconds
        rw [hs']
        exact ⟨_, rfl, h.sleepThread htracked hstatus hcore hids (hop t hcur)⟩
      · exact ⟨g, rfl, h⟩
  | reschedule core =>
    obtain ⟨s', hs', htracked, hparks, hlife⟩ := h.tracked.reschedule core
    refine ⟨_, ?_, h.reschedule htracked hparks hlife⟩
    unfold LimiterRun.exec
    dsimp only
    rw [hs']
    rfl

theorem Ok.foldlM (h : Ok g) {ops : List LimiterOp} (hops : FreshRun g ops) :
    ∃ g', ops.foldlM LimiterRun.exec g = .ok g' ∧ Ok g' := by
  induction ops generalizing g with
  | nil => exact ⟨g, rfl, h⟩
  | cons op ops ih =>
    obtain ⟨hop, hrest⟩ := hops
    obtain ⟨g₁, hg₁, h₁⟩ := h.exec hop
    obtain ⟨g₂, hg₂, h₂⟩ := ih h₁ (hrest g₁ hg₁)
    refine ⟨g₂, ?_, h₂⟩
    rw [List.foldlM_cons, hg₁]
    exact hg₂

/-- In a run in which no thread calls `SleepThread` while the limiter still has its id, `WakeupSleepingThreads` cuts no
sleep short, and the limiter has the id of every thread that `DoTimeLimit` has parked and that was not resumed. -/
theorem run_sleepsWhole (ops : List LimiterOp) (hops : FreshRun {} ops) :
    ∃ g, run ops = .ok g ∧ g.cutShort = [] ∧ ∀ t, g.parked t = true → t ∈ g.sched.sleepingThreadIds := by
  obtain ⟨g, hrun, h⟩ := ok_empty.foldlM hops
  exact ⟨g, hrun, h.cutShort, fun t ht => (h.parked t ht).1⟩

private theorem FreshRun.cons {g' : LimiterRun} {op : LimiterOp} {ops : List LimiterOp} (hop : Fresh g op)
    (hexec : g.exec op = .ok g') (hrest : FreshRun g' ops) : FreshRun g (op :: ops) := by
  refine ⟨hop, fun g₁ hg₁ => ?_⟩
  obtain rfl := Except.ok.inj (hexec.symm.trans hg₁)
  exact hrest

def freshOps : List LimiterOp :=
  [.setScheduleMode .multi, .updateAppCpuLimit 30, .onTick, .createThread 0x30 1 1 .application true, .reschedule 1,
    .sleepThread 1 1000000000, .createThread 0x30 1 1 .application true, .onTick, .reschedule 1, .onTick, .timeout 0]

theorem freshOps_sleepsWhole : FreshRun {} freshOps ∧ ∃ g, run freshOps = .ok g ∧ g.cutShort = [] ∧
    ∀ t, g.parked t = true → t ∈ g.sched.sleepingThreadIds := by
  have hops : FreshRun {} freshOps := by
    refine .cons trivial rfl (.cons trivial rfl (.cons trivial rfl (.cons trivial rfl (.cons trivial rfl ?_))))
    refine .cons (fun t _ => List.not_mem_nil) rfl ?_
    exact .cons trivial rfl (.cons trivial rfl (.cons trivial rfl (.cons trivial rfl (.cons trivial rfl trivial))))
  exact ⟨hops, run_sleepsWhole freshOps hops⟩

/-- Thread 0 is signaled shortly before its wait times out, and is parked; the timeout resumes it.  When the state of the
limiter changes it runs and sleeps, and the next tick wakes it. -/
def staleOps : List LimiterOp :=
  [.setScheduleMode .multi, .updateAppCpuLimit 30, .onTick, .createThread 0x30 1 1 .application true, .reschedule 1,
    .waitForObject 1 .waitSynchAny 1000000, .reschedule 1, .signal 0, .onTick, .reschedule 1, .timeout 0,
    .updateAppCpuLimit 30, .reschedule 1, .sleepThread 1 1000000000, .onTick]

/-- The thread is ready although the event that should end its sleep is still scheduled. -/
theorem staleOps_cutShort : ∃ g, run staleOps = .ok g ∧ g.cutShort = [0] ∧ g.sched.status 0 = .ready ∧
    g.sched.wakeupEvents 0 = 1 := ⟨_, rfl, rfl, rfl, rfl⟩

end Invariant

end LimiterRun

end SweepDSEmu
