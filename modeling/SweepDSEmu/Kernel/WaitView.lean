import SweepDSEmu.Kernel.WaitLinks

/-!
# Owners and requests

What the operations on wait objects do to the owners of mutexes, to the requests of server sessions and to the statuses
of threads, apart from waiting lists and priorities.

* `WaitView` is this part of the state, and `ViewStep` says what one step can do to it, with a label.
* A loop that wakes threads makes only steps of three kinds, those of `isWakeup`: `wakeupAllWaitingThreads_wakes`.
-/

namespace SweepDSEmu

/-- A wait object without what the steps do not look at. -/
inductive ObjectCore where
  | plain
  | mutex (lockCount : Int) (holdingThread : Option ThreadId)
  | session (client : Bool) (pendingRequestingThreads : List ThreadId) (currentlyHandling : Option ThreadId)
  deriving DecidableEq

structure WaitView where
  core : ObjectId → ObjectCore
  heldMutexes : ThreadId → List ObjectId
  status : ThreadId → ThreadStatus
  nextObjectId : ObjectId
  nextThreadId : ThreadId

inductive WaitEvent where
  | moves (t : ThreadId)
  | acquire (o : ObjectId) (t : ThreadId)
  | release (o : ObjectId) (t : ThreadId)
  /-- A mutex of a thread that ends. -/
  | abandon (o : ObjectId) (t : ThreadId)
  /-- The list of mutexes of a thread that has ended. -/
  | forget (t : ThreadId)
  | request (o : ObjectId) (t : ThreadId)
  /-- The request of a thread is taken by a server. -/
  | accept (o : ObjectId) (t : ThreadId)
  | reply (o : ObjectId) (t : ThreadId)
  /-- A reply to a client that is closed. -/
  | drop (o : ObjectId)
  | close (o : ObjectId)
  /-- A request that a service handles at once, and the end of its delay. -/
  | hleRequest (t : ThreadId)
  | expire (t : ThreadId)
  | die (t : ThreadId)
  | create (o : ObjectId)
  | createThread (t : ThreadId)
  deriving DecidableEq

def WaitEvent.isWakeup : WaitEvent → Bool
  | .moves _ | .acquire .. | .accept .. => true
  | _ => false

namespace WaitView

def setCore (v : WaitView) (o : ObjectId) (core : ObjectCore) : WaitView :=
  { v with core := Function.update v.core o core }

def setStatus (v : WaitView) (t : ThreadId) (status : ThreadStatus) : WaitView :=
  { v with status := Function.update v.status t status }

def setHeldMutexes (v : WaitView) (t : ThreadId) (objects : List ObjectId) : WaitView :=
  { v with heldMutexes := Function.update v.heldMutexes t objects }

structure Holds (v : WaitView) (t : ThreadId) : Prop where
  nodup : (v.heldMutexes t).Nodup
  holder : ∀ o ∈ v.heldMutexes t, ∃ lockCount, v.core o = .mutex lockCount (some t) ∧ 0 < lockCount

def acquired (v : WaitView) (o : ObjectId) (t : ThreadId) (lockCount : Int) (holdingThread : Option ThreadId) :
    WaitView :=
  if lockCount = 0 then
    (v.setCore o (.mutex (lockCount + 1) (some t))).setHeldMutexes t ((v.heldMutexes t).insert o)
  else v.setCore o (.mutex (lockCount + 1) holdingThread)

def released (v : WaitView) (o : ObjectId) (t : ThreadId) (lockCount : Int) : WaitView :=
  if lockCount - 1 = 0 then (v.setCore o (.mutex 0 none)).setHeldMutexes t ((v.heldMutexes t).erase o)
  else v.setCore o (.mutex (lockCount - 1) (some t))

end WaitView

def resumedStatus : ThreadStatus → ThreadStatus
  | .running => .running
  | .dead => .dead
  | _ => .ready

inductive ViewStep : WaitView → WaitEvent → WaitView → Prop where
  | moves {v : WaitView} {t : ThreadId} {status : ThreadStatus} (hold : v.status t ≠ .waitIPC ∧ v.status t ≠ .dead)
      (hnew : status ≠ .waitIPC ∧ status ≠ .dead) : ViewStep v (.moves t) (v.setStatus t status)
  | acquire {v : WaitView} {o : ObjectId} {t : ThreadId} {lockCount : Int} {holder : Option ThreadId}
      (hcore : v.core o = .mutex lockCount holder) (hfree : lockCount ≤ 0 ∨ holder = some t)
      (halive : v.status t ≠ .dead) : ViewStep v (.acquire o t) (v.acquired o t lockCount holder)
  | release {v : WaitView} {o : ObjectId} {t : ThreadId} {lockCount : Int}
      (hcore : v.core o = .mutex lockCount (some t)) (hpos : 0 < lockCount) (halive : v.status t ≠ .dead) :
      ViewStep v (.release o t) (v.released o t lockCount)
  | abandon {v : WaitView} {o : ObjectId} {t : ThreadId} {lockCount : Int} (hdead : v.status t = .dead)
      (hheld : o ∈ v.heldMutexes t) (hcore : v.core o = .mutex lockCount (some t)) :
      ViewStep v (.abandon o t) (v.setCore o (.mutex 0 none))
  | forget {v : WaitView} {t : ThreadId} (hdead : v.status t = .dead)
      (hnone : ∀ o ∈ v.heldMutexes t, ∀ lockCount, v.core o ≠ .mutex lockCount (some t)) :
      ViewStep v (.forget t) (v.setHeldMutexes t [])
  | request {v : WaitView} {o : ObjectId} {t : ThreadId} {pending : List ThreadId} {handling : Option ThreadId}
      (hcore : v.core o = .session true pending handling) (hrunning : v.status t = .running) :
      ViewStep v (.request o t) ((v.setStatus t .waitIPC).setCore o (.session true (pending ++ [t]) handling))
  | accept {v : WaitView} {o : ObjectId} {t : ThreadId} {pending : List ThreadId}
      (hcore : v.core o = .session true (pending ++ [t]) none) :
      ViewStep v (.accept o t) (v.setCore o (.session true pending (some t)))
  | reply {v : WaitView} {o : ObjectId} {t : ThreadId} {pending : List ThreadId}
      (hcore : v.core o = .session true pending (some t)) :
      ViewStep v (.reply o t)
        ((v.setCore o (.session true pending none)).setStatus t (resumedStatus (v.status t)))
  | drop {v : WaitView} {o : ObjectId} {pending : List ThreadId} {handling : Option ThreadId}
      (hcore : v.core o = .session false pending handling) :
      ViewStep v (.drop o) (v.setCore o (.session false pending none))
  | close {v : WaitView} {o : ObjectId} {pending : List ThreadId} {handling : Option ThreadId}
      (hcore : v.core o = .session true pending handling) : ViewStep v (.close o) (v.setCore o (.session false [] none))
  | hleRequest {v : WaitView} {t : ThreadId} (hrunning : v.status t = .running) :
      ViewStep v (.hleRequest t) (v.setStatus t .waitIPC)
  | expire {v : WaitView} {t : ThreadId} (hwait : v.status t = .waitIPC) :
      ViewStep v (.expire t) (v.setStatus t .ready)
  | die {v : WaitView} {t : ThreadId} : ViewStep v (.die t) (v.setStatus t .dead)
  | create {v : WaitView} {core : ObjectCore}
      (hfresh : core = .plain ∨ core = .mutex 0 none ∨ ∃ client, core = .session client [] none) :
      ViewStep v (.create v.nextObjectId)
        { v.setCore v.nextObjectId core with nextObjectId := v.nextObjectId + 1 }
  | createThread {v : WaitView} : ViewStep v (.createThread v.nextThreadId)
      { v.setStatus v.nextThreadId .ready with nextThreadId := v.nextThreadId + 1 }

inductive ViewRun : WaitView → List WaitEvent → WaitView → Prop where
  | nil {v : WaitView} : ViewRun v [] v
  | cons {v v' v'' : WaitView} {e : WaitEvent} {events : List WaitEvent} (hstep : ViewStep v e v')
      (hrest : ViewRun v' events v'') : ViewRun v (e :: events) v''

namespace ViewRun

variable {v v' v'' : WaitView} {e : WaitEvent} {events events' : List WaitEvent}

theorem one (h : ViewStep v e v') : ViewRun v [e] v' := .cons h .nil

theorem append (h : ViewRun v events v') (h' : ViewRun v' events' v'') : ViewRun v (events ++ events') v'' := by
  induction h with
  | nil => exact h'
  | cons hstep _ ih => exact .cons hstep (ih h')

theorem keeps {P : WaitView → Prop} (h : ViewRun v events v') (hv : P v)
    (hstep : ∀ v e v', e ∈ events → ViewStep v e v' → P v → P v') : P v' := by
  induction h with
  | nil => exact hv
  | cons hs _ ih =>
    exact ih (hstep _ _ _ List.mem_cons_self hs hv) fun v e v' he => hstep v e v' (List.mem_cons_of_mem _ he)

end ViewRun

namespace WaitKernel

def core : WaitObject → ObjectCore
  | .mutex lockCount _ holdingThread => .mutex lockCount holdingThread
  | .serverSession client pending currentlyHandling => .session client pending currentlyHandling
  | _ => .plain

def view (s : WaitKernel) : WaitView where
  core := fun o => core (s.object o)
  heldMutexes := s.heldMutexes
  status := s.status
  nextObjectId := s.nextObjectId
  nextThreadId := s.nextThreadId

def Wakes (s s' : WaitKernel) : Prop := ∃ events, ViewRun s.view events s'.view ∧ ∀ e ∈ events, e.isWakeup

variable {s s' s'' : WaitKernel} {o : ObjectId} {t : ThreadId}

theorem Wakes.of_view (h : s'.view = s.view) : Wakes s s' := ⟨[], by rw [h]; exact .nil, by simp⟩

theorem Wakes.one {e : WaitEvent} (h : ViewStep s.view e s'.view) (he : e.isWakeup) : Wakes s s' :=
  ⟨[e], .one h, by simpa using he⟩

theorem Wakes.trans (h : Wakes s s') (h' : Wakes s' s'') : Wakes s s'' := by
  obtain ⟨events, hrun, hevents⟩ := h
  obtain ⟨events', hrun', hevents'⟩ := h'
  refine ⟨events ++ events', hrun.append hrun', ?_⟩
  intro e he
  rcases List.mem_append.mp he with he | he
  · exact hevents e he
  · exact hevents' e he

theorem view_setObject (s : WaitKernel) (o : ObjectId) (object : WaitObject) :
    (s.setObject o object).view = s.view.setCore o (core object) := by
  unfold view WaitView.setCore setObject
  congr 1
  funext o'
  show core (Function.update s.object o object o') = Function.update (fun o => core (s.object o)) o (core object) o'
  rw [Function.update_apply, Function.update_apply]
  split <;> rfl

theorem view_setObject_same {object : WaitObject} (h : core (s.object o) = core object) :
    (s.setObject o object).view = s.view := by
  rw [view_setObject, ← h]
  unfold WaitView.setCore view
  rw [Function.update_eq_self_iff.mpr rfl]

theorem view_updatePriority (s : WaitKernel) (t : ThreadId) : (s.updatePriority t).view = s.view := rfl

theorem view_updateMutexPriority (s : WaitKernel) (o : ObjectId) : (s.updateMutexPriority o).view = s.view := by
  unfold updateMutexPriority
  split
  · rename_i lockCount priority holder hobject
    dsimp only
    split
    · exact view_setObject_same (by rw [hobject]; rfl)
    · rfl
  · rfl

theorem view_addWaitingThread (s : WaitKernel) (o : ObjectId) (t : ThreadId) :
    (s.addWaitingThread o t).view = s.view := by
  unfold addWaitingThread
  dsimp only
  generalize (if t ∈ s.waitingThreads o then s.waitingThreads o else s.waitingThreads o ++ [t]) = threads
  split
  · rw [view_updateMutexPriority]
    rfl
  · rfl

theorem view_removeWaitingThread (s : WaitKernel) (o : ObjectId) (t : ThreadId) :
    (s.removeWaitingThread o t).view = s.view := by
  unfold removeWaitingThread
  dsimp only
  split
  · rw [view_updateMutexPriority]
    rfl
  · rfl

private theorem view_foldl {f : WaitKernel → ObjectId → WaitKernel} (hf : ∀ s o, (f s o).view = s.view)
    (objects : List ObjectId) (s : WaitKernel) : (objects.foldl f s).view = s.view := by
  induction objects generalizing s with
  | nil => rfl
  | cons o objects ih => rw [List.foldl_cons, ih, hf]

theorem view_leaveWaitObjects (s : WaitKernel) (t : ThreadId) : (s.leaveWaitObjects t).view = s.view := by
  exact view_foldl (fun s o => view_removeWaitingThread s o t) (s.waitObjects t) s

theorem view_setThreadPriority (s : WaitKernel) (t : ThreadId) (priority : Nat) :
    (s.setThreadPriority t priority).view = s.view := by
  unfold setThreadPriority
  rw [view_foldl view_updateMutexPriority, view_updatePriority]
  rfl

theorem view_suspend (s : WaitKernel) (t : ThreadId) (objects : List ObjectId) (status : ThreadStatus)
    (callback : WakeupCallback) : (s.suspend t objects status callback).view = s.view.setStatus t status := by
  exact view_foldl (fun s o => view_addWaitingThread s o t) objects (s.setStatus t status)

theorem acquire_wakes (h : s.acquire o t = .ok s') (ht : s.status t ≠ .dead) : Wakes s s' := by
  unfold acquire at h
  split at h
  · rename_i signaled resetType hobject
    split at h
    · cases h
    · cases h
      apply Wakes.of_view
      split
      · exact view_setObject_same (by rw [hobject]; rfl)
      · rfl
  · rename_i signaled resetType hobject
    split at h
    · cases h
    · cases h
      apply Wakes.of_view
      split
      · exact view_setObject_same (by rw [hobject]; rfl)
      · rfl
  · rename_i availableCount maxCount hobject
    cases h
    apply Wakes.of_view
    split
    · rfl
    · exact view_setObject_same (by rw [hobject]; rfl)
  · rename_i lockCount priority holder hobject
    split at h
    · cases h
    · rename_i hwait
      have hfree : lockCount ≤ 0 ∨ holder = some t := by
        simp only [shouldWait, hobject, Bool.and_eq_true, decide_eq_true_eq, not_and, not_not] at hwait
        by_cases hpos : lockCount > 0
        · exact .inr (hwait hpos)
        · exact .inl (not_lt.mp hpos)
      have hcore : s.view.core o = .mutex lockCount holder := by
        show core (s.object o) = _
        rw [hobject]
        rfl
      have hstep := ViewStep.acquire hcore hfree ht
      unfold WaitView.acquired at hstep
      split at h
      · rename_i hzero
        cases h
        rw [if_pos hzero] at hstep
        refine Wakes.one (e := .acquire o t) ?_ rfl
        have hview := view_setObject s o (.mutex (lockCount + 1) (s.currentPriority t) (some t))
        have hnew : core (.mutex (lockCount + 1) (s.currentPriority t) (some t)) =
            .mutex (lockCount + 1) (some t) := rfl
        rw [hnew] at hview
        rw [← hview] at hstep
        exact hstep
      · rename_i hzero
        cases h
        rw [if_neg hzero] at hstep
        refine Wakes.one (e := .acquire o t) ?_ rfl
        rw [view_setObject]
        exact hstep
  · rename_i client pending handling hobject
    split at h
    · cases h
    · rename_i hwait
      split at h
      · cases h
        exact Wakes.of_view rfl
      · rename_i hclient
        split at h
        · cases h
        · rename_i request hlast
          cases h
          have hclient : client = true := by simpa using hclient
          subst hclient
          simp only [shouldWait, hobject, Bool.true_and, Bool.or_eq_true, not_or, Bool.not_eq_true,
            Option.isSome_eq_false_iff, Option.isNone_iff_eq_none] at hwait
          obtain ⟨-, rfl⟩ := hwait
          have hpending : pending = pending.dropLast ++ [request] := (List.dropLast_append_getLast? request hlast).symm
          have hcore : s.view.core o = .session true (pending.dropLast ++ [request]) none := by
            rw [← hpending]
            show core (s.object o) = _
            rw [hobject]
            rfl
          refine Wakes.one (e := .accept o request) ?_ rfl
          rw [view_setObject]
          exact .accept hcore
  · split at h
    · cases h
    · cases h
      exact Wakes.of_view rfl
  · split at h
    · cases h
    · cases h
      exact Wakes.of_view rfl

theorem acquireAll_wakes {objects : List ObjectId} (h : s.acquireAll t objects = .ok s') (ht : s.status t ≠ .dead) :
    Wakes s s' ∧ SameWaits s s' := by
  induction objects generalizing s with
  | nil =>
    cases h
    exact ⟨Wakes.of_view rfl, SameWaits.refl _⟩
  | cons o objects ih =>
    obtain ⟨s₁, hs₁, h⟩ := ok_of_bind h
    have hsame := sameWaits_acquire hs₁
    obtain ⟨hwakes, hsame'⟩ := ih h (by rw [hsame.status]; exact ht)
    exact ⟨(acquire_wakes hs₁ ht).trans hwakes, hsame.trans hsame'⟩

theorem view_resumeFromWait (h : s.resumeFromWait t = .ok s') :
    s'.view = s.view.setStatus t (resumedStatus (s.status t)) := by
  have hsame : s.status t = resumedStatus (s.status t) → s.view = s.view.setStatus t (resumedStatus (s.status t)) := by
    intro heq
    rw [← heq]
    unfold WaitView.setStatus view
    rw [Function.update_eq_self]
  unfold resumeFromWait at h
  split at h
  · cases h
  · cases hstatus : s.status t with
    | running =>
      simp only [hstatus] at h
      cases h
      rw [← hstatus]
      exact hsame (by rw [hstatus]; rfl)
    | dead =>
      simp only [hstatus] at h
      cases h
      rw [← hstatus]
      exact hsame (by rw [hstatus]; rfl)
    | ready =>
      simp only [hstatus] at h
      split at h
      · cases h
        rw [← hstatus]
        exact hsame (by rw [hstatus]; rfl)
      · cases h
    | _ =>
      simp only [hstatus] at h
      cases h
      rfl

theorem resumeFromWait_wakes (h : s.resumeFromWait t = .ok s') (ht : s.status t ≠ .waitIPC)
    (halive : s.status t ≠ .dead) : Wakes s s' := by
  refine Wakes.one (e := .moves t) ?_ rfl
  rw [view_resumeFromWait h]
  refine .moves ⟨ht, halive⟩ ?_
  cases hstatus : s.status t <;> simp_all [resumedStatus]

theorem searchReady_waiting {candidate : Option ThreadId} {threads : List ThreadId}
    (h : s.searchReady o candidate threads = .ok (some t))
    (hcandidate : ∀ u, candidate = some u → s.status u ∈ waitingStatuses) : s.status t ∈ waitingStatuses := by
  induction threads generalizing candidate with
  | nil =>
    cases h
    exact hcandidate t rfl
  | cons u threads ih =>
    unfold searchReady at h
    split at h
    · cases h
    · rename_i hstatus
      have hu : s.status u ∈ waitingStatuses := by
        simp only [waitingStatuses, List.mem_cons, List.not_mem_nil, or_false]
        by_contra hnot
        exact hstatus ⟨fun h => hnot (.inl h), fun h => hnot (.inr (.inl h)), fun h => hnot (.inr (.inr h))⟩
      split at h
      · exact ih h hcandidate
      · split at h
        · exact ih h hcandidate
        · split at h
          · exact ih h hcandidate
          · exact ih h fun v hv => by
              cases hv
              exact hu

private theorem waiting_ne {status : ThreadStatus} (h : status ∈ waitingStatuses) :
    status ≠ .waitIPC ∧ status ≠ .dead := by
  constructor
  · rintro rfl
    exact absurd h (by decide)
  · rintro rfl
    exact absurd h (by decide)

theorem wakeupThread_wakes (h : s.wakeupThread o t = .ok s') (ht : s.status t ∈ waitingStatuses) : Wakes s s' := by
  obtain ⟨hipc, halive⟩ := waiting_ne ht
  have hacquired : ∃ s₁, (Wakes s s₁ ∧ SameWaits s s₁) ∧ (s₁.leaveWaitObjects t).resumeFromWait t = .ok s' := by
    unfold wakeupThread at h
    split at h
    · obtain ⟨s₁, hs₁, h⟩ := ok_of_bind h
      obtain ⟨-, -, hresume⟩ := ok_of_bind h
      exact ⟨s₁, ⟨acquire_wakes hs₁ halive, sameWaits_acquire hs₁⟩, hresume⟩
    · obtain ⟨s₁, hs₁, h⟩ := ok_of_bind h
      obtain ⟨-, -, hresume⟩ := ok_of_bind h
      exact ⟨s₁, acquireAll_wakes hs₁ halive, hresume⟩
  obtain ⟨s₁, ⟨hwakes, hsame⟩, hresume⟩ := hacquired
  have hleave := view_leaveWaitObjects s₁ t
  have hstatus : (s₁.leaveWaitObjects t).status t = s.status t := by
    rw [← hsame.status]
    exact congrFun (congrArg WaitView.status hleave) t
  refine hwakes.trans ((Wakes.of_view hleave).trans (resumeFromWait_wakes hresume ?_ ?_))
  · rw [hstatus]
    exact hipc
  · rw [hstatus]
    exact halive

theorem wakeupLoop_wakes {n : Nat} (h : wakeupLoop o n s = .ok s') : Wakes s s' := by
  induction n generalizing s with
  | zero => cases h
  | succ n ih =>
    obtain ⟨found, hfound, h⟩ := ok_of_bind h
    cases found with
    | none =>
      cases h
      exact Wakes.of_view rfl
    | some t =>
      obtain ⟨s₁, hs₁, h⟩ := ok_of_bind h
      have ht := searchReady_waiting hfound fun u hu => by cases hu
      exact (wakeupThread_wakes hs₁ ht).trans (ih h)

theorem wakeupAllWaitingThreads_wakes (h : s.wakeupAllWaitingThreads o = .ok s') : Wakes s s' := by
  obtain ⟨s₁, hs₁, h⟩ := ok_of_bind h
  refine (wakeupLoop_wakes hs₁).trans (Wakes.of_view ?_)
  split at h
  · rename_i hobject
    cases h
    exact view_setObject_same (by rw [hobject]; rfl)
  · cases h
    rfl

end WaitKernel

end SweepDSEmu
