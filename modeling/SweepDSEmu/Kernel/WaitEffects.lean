import SweepDSEmu.Kernel.WaitView

/-!
# The steps of the operations

Every operation on wait objects is a run of steps of its view, and `effects` says which of them are not steps that wake
threads: `exec_run`.
-/

namespace SweepDSEmu

open Function

namespace WaitKernel

variable {s s' s'' : WaitKernel} {o : ObjectId} {t : ThreadId}

/-- The steps of `ReplyAndReceive` for its reply. -/
def replyEffects (s : WaitKernel) (o : ObjectId) : List WaitEvent :=
  match s.object o with
  | .serverSession true _ (some request) => [.reply o request]
  | .serverSession false _ _ => [.drop o]
  | _ => []

def requestEffects (s : WaitKernel) (t : ThreadId) (o : ObjectId) (handling : Handling) : List WaitEvent :=
  match s.object o with
  | .serverSession true _ _ =>
    match handling with
    | .lle => [.request o t]
    | .hle => [.hleRequest t]
    | .hleSleep => [.create s.nextObjectId]
  | _ => []

def closeEffects (s : WaitKernel) (o : ObjectId) : List WaitEvent :=
  match s.object o with
  | .serverSession true _ _ => [.close o]
  | _ => []

def releaseEffects (s : WaitKernel) (t : ThreadId) (o : ObjectId) : List WaitEvent :=
  match s.object o with
  | .mutex lockCount _ (some holder) => if holder = t ∧ 0 < lockCount then [.release o t] else []
  | _ => []

def stopEffects (s : WaitKernel) (o : ObjectId) : List WaitEvent :=
  match s.object o with
  | .thread t =>
    .die t :: (s.heldMutexes t).map (fun o => WaitEvent.abandon o t) ++ [.forget t]
  | _ => []

/-- The steps of an operation that are not those of its loops that wake threads. -/
def effects (s : WaitKernel) : Op → List WaitEvent
  | .createObject object => if isFresh object then [.create s.nextObjectId] else []
  | .createMutex t _ => if s.calls t [] then [.create s.nextObjectId] else []
  | .createThread priority =>
    if priority ≤ threadPrioLowest then [.create s.nextObjectId, .createThread s.nextThreadId] else []
  | .replyAndReceive t objects (some o) => if s.calls t objects then s.replyEffects o else []
  | .sendSyncRequest t o handling => if s.calls t [o] then s.requestEffects t o handling else []
  | .closeClient o => s.closeEffects o
  | .releaseMutex t o => if s.calls t [o] then s.releaseEffects t o else []
  | .stop o => s.stopEffects o
  | .timeout t => if s.status t = .waitIPC then [.expire t] else []
  | _ => []

/-- A run of steps with these besides steps that wake threads. -/
def Performs (s : WaitKernel) (effects : List WaitEvent) (s' : WaitKernel) : Prop :=
  ∃ events, ViewRun s.view events s'.view ∧ events.filter (fun e => !e.isWakeup) = effects

variable {effects effects' : List WaitEvent}

theorem Wakes.performs (h : Wakes s s') : s.Performs [] s' := by
  obtain ⟨events, hrun, hevents⟩ := h
  refine ⟨events, hrun, ?_⟩
  rw [List.filter_eq_nil_iff]
  intro e he
  simp [hevents e he]

theorem Performs.of_view (h : s'.view = s.view) : s.Performs [] s' := (Wakes.of_view h).performs

theorem Performs.one {e : WaitEvent} (h : ViewStep s.view e s'.view) (he : e.isWakeup = false) : s.Performs [e] s' :=
  ⟨[e], .one h, by simp [he]⟩

theorem Performs.trans (h : s.Performs effects s') (h' : s'.Performs effects' s'') :
    s.Performs (effects ++ effects') s'' := by
  obtain ⟨events, hrun, rfl⟩ := h
  obtain ⟨events', hrun', rfl⟩ := h'
  exact ⟨events ++ events', hrun.append hrun', List.filter_append events events'⟩

theorem Performs.wakes (h : s.Performs effects s') (h' : Wakes s' s'') : s.Performs effects s'' := by
  have hboth := h.trans h'.performs
  rwa [List.append_nil] at hboth

theorem suspend_wakes (objects : List ObjectId) {status : ThreadStatus} (callback : WakeupCallback)
    (hold : s.status t ≠ .waitIPC ∧ s.status t ≠ .dead) (hnew : status ≠ .waitIPC ∧ status ≠ .dead) :
    Wakes s (s.suspend t objects status callback) := by
  refine Wakes.one (e := .moves t) ?_ rfl
  rw [view_suspend]
  exact .moves hold hnew

variable {objects : List ObjectId}

theorem calls_running (h : s.calls t objects) : s.status t = .running := by
  unfold calls at h
  simp only [Bool.and_eq_true, decide_eq_true_eq] at h
  exact h.1

private theorem running_ne (h : s.status t = .running) : s.status t ≠ .waitIPC ∧ s.status t ≠ .dead := by
  rw [h]
  exact ⟨by decide, by decide⟩

theorem waitSynchronization1_wakes {nanoseconds : Int} (ht : s.status t = .running)
    (h : s.waitSynchronization1 t o nanoseconds = .ok s') : Wakes s s' := by
  unfold waitSynchronization1 at h
  split at h
  · split at h
    · cases h
      exact Wakes.of_view rfl
    · cases h
      exact suspend_wakes [o] _ (running_ne ht) ⟨by decide, by decide⟩
  · exact acquire_wakes h (running_ne ht).2

theorem waitSynchronizationAny_wakes {nanoseconds : Int} (ht : s.status t = .running)
    (h : s.waitSynchronizationAny t objects nanoseconds = .ok s') : Wakes s s' := by
  unfold waitSynchronizationAny at h
  split at h
  · exact acquire_wakes h (running_ne ht).2
  · split at h
    · cases h
      exact Wakes.of_view rfl
    · cases h
      exact suspend_wakes objects _ (running_ne ht) ⟨by decide, by decide⟩

theorem waitAllObjects_wakes {nanoseconds : Int} {result : WaitResult}
    (ht : s.status t = .running) (h : s.waitAllObjects t objects nanoseconds = .ok (result, s')) : Wakes s s' := by
  unfold waitAllObjects at h
  split at h
  · obtain ⟨s₁, hs₁, h⟩ := ok_of_bind h
    cases h
    exact (acquireAll_wakes hs₁ (running_ne ht).2).1
  · split at h
    · cases h
      exact Wakes.of_view rfl
    · cases h
      exact suspend_wakes objects _ (running_ne ht) ⟨by decide, by decide⟩

theorem receive_wakes (ht : s.status t = .running) (h : s.receive t objects = .ok s') : Wakes s s' := by
  unfold receive at h
  split at h
  · cases h
    exact Wakes.of_view rfl
  · split at h
    · obtain ⟨s₁, hs₁, h⟩ := ok_of_bind h
      obtain ⟨-, -, h⟩ := ok_of_bind h
      cases h
      exact acquire_wakes hs₁ (running_ne ht).2
    · cases h
      exact suspend_wakes objects _ (running_ne ht) ⟨by decide, by decide⟩

theorem reply_performs {sent : Bool} (h : s.reply o = .ok (sent, s')) (ht : s.status t = .running) :
    s.Performs (s.replyEffects o) s' ∧ s'.status t = .running := by
  unfold reply at h
  unfold replyEffects
  split at h
  · rename_i client pending handling hobject
    have hcore : s.view.core o = .session client pending handling := by
      show core (s.object o) = _
      rw [hobject]
      rfl
    split at h
    · cases h
      rw [hobject]
      cases client with
      | true => exact ⟨Performs.of_view (view_setObject_same (by rw [hobject])), ht⟩
      | false =>
        refine ⟨Performs.one (e := .drop o) ?_ rfl, ht⟩
        rw [view_setObject]
        exact .drop hcore
    · rename_i request
      rw [hobject]
      split at h
      · rename_i hclient
        subst hclient
        obtain ⟨s₁, hs₁, h⟩ := ok_of_bind h
        cases h
        have hview := view_resumeFromWait hs₁
        rw [view_setObject] at hview
        refine ⟨Performs.one (e := .reply o request) ?_ rfl, ?_⟩
        · rw [hview]
          exact .reply hcore
        · have hstatus : s'.status t = update s.status request (resumedStatus (s.status request)) t :=
            congrFun (congrArg WaitView.status hview) t
          rw [hstatus, update_apply]
          split
          · rename_i heq
            rw [← heq, ht]
            rfl
          · exact ht
      · rename_i hclient
        have hclient : client = false := by simpa using hclient
        subst hclient
        cases h
        refine ⟨Performs.one (e := .drop o) ?_ rfl, ht⟩
        rw [view_setObject]
        exact .drop hcore
  · rename_i hnot
    cases h
    refine ⟨?_, ht⟩
    split
    · rename_i hobject
      exact absurd hobject (hnot _ _ _)
    · rename_i hobject
      exact absurd hobject (hnot _ _ _)
    · exact Performs.of_view rfl

theorem createObject_performs {object : WaitObject}
    (hfresh : core object = .plain ∨ core object = .mutex 0 none ∨ ∃ client, core object = .session client [] none) :
    s.Performs [.create s.nextObjectId] (s.createObject object) := by
  refine Performs.one (e := .create s.nextObjectId) ?_ rfl
  have hview : (s.createObject object).view =
      { s.view.setCore s.nextObjectId (core object) with nextObjectId := s.nextObjectId + 1 } := by
    rw [← view_setObject]
    rfl
  rw [hview]
  exact .create hfresh

private theorem core_of_isFresh {object : WaitObject} (h : isFresh object) :
    core object = .plain ∨ core object = .mutex 0 none ∨ ∃ client, core object = .session client [] none := by
  cases object with
  | serverSession client pending handling =>
    simp only [isFresh, Bool.and_eq_true, List.isEmpty_iff, Option.isNone_iff_eq_none] at h
    obtain ⟨rfl, rfl⟩ := h
    exact .inr (.inr ⟨client, rfl⟩)
  | mutex lockCount priority holder => cases h
  | thread t => cases h
  | _ => exact .inl rfl

theorem handleSyncRequest_performs {handling : Handling} (ht : s.status t = .running)
    (h : s.handleSyncRequest t o handling = .ok s') : s.Performs (s.requestEffects t o handling) s' := by
  unfold handleSyncRequest at h
  split at h
  · rename_i pending currentlyHandling hobject
    unfold requestEffects
    rw [hobject]
    have hcore : s.view.core o = .session true pending currentlyHandling := by
      show core (s.object o) = _
      rw [hobject]
      rfl
    cases handling with
    | lle =>
      have hrequest : s.Performs [.request o t] ((s.setStatus t .waitIPC).setObject o
          (.serverSession true (pending ++ [t]) currentlyHandling)) := by
        refine Performs.one (e := .request o t) ?_ rfl
        rw [view_setObject]
        exact .request hcore ht
      exact hrequest.wakes (wakeupAllWaitingThreads_wakes h)
    | hle =>
      have hrequest : s.Performs [.hleRequest t] (s.setStatus t .waitIPC) := Performs.one (.hleRequest ht) rfl
      exact hrequest.wakes (wakeupAllWaitingThreads_wakes h)
    | hleSleep =>
      have hcreate : s.Performs [.create s.nextObjectId] (s.createObject (.event false .oneShot)) :=
        createObject_performs (.inl rfl)
      have hsleep : s.Performs [.create s.nextObjectId] (s.sleepClientThread t) :=
        hcreate.wakes (suspend_wakes _ _ (running_ne ht) ⟨by decide, by decide⟩)
      exact hsleep.wakes (wakeupAllWaitingThreads_wakes h)
  · rename_i hnot
    cases h
    unfold requestEffects
    split
    · rename_i hobject
      exact absurd hobject (hnot _ _)
    · exact Performs.of_view rfl

theorem closeClient_performs (h : s.closeClient o = .ok s') : s.Performs (s.closeEffects o) s' := by
  unfold closeClient at h
  split at h
  · rename_i pending currentlyHandling hobject
    unfold closeEffects
    rw [hobject]
    refine Performs.wakes ?_ (wakeupAllWaitingThreads_wakes h)
    refine Performs.one (e := .close o) ?_ rfl
    rw [view_setObject]
    have hcore : s.view.core o = .session true pending currentlyHandling := by
      show core (s.object o) = _
      rw [hobject]
      rfl
    exact .close hcore
  · rename_i hnot
    cases h
    unfold closeEffects
    split
    · rename_i hobject
      exact absurd hobject (hnot _ _)
    · exact Performs.of_view rfl

private theorem wakes_of_plain {object : WaitObject} (hsame : core (s.object o) = core object)
    (h : (s.setObject o object).wakeupAllWaitingThreads o = .ok s') : Wakes s s' :=
  (Wakes.of_view (view_setObject_same hsame)).trans (wakeupAllWaitingThreads_wakes h)

theorem connect_wakes (h : s.connect o = .ok s') : Wakes s s' := by
  unfold connect at h
  split at h
  · rename_i pendingSessions hobject
    exact wakes_of_plain (by rw [hobject]; rfl) h
  · cases h
    exact Wakes.of_view rfl

theorem view_accept (s : WaitKernel) (o : ObjectId) : (s.accept o).view = s.view := by
  unfold accept
  split
  · rename_i pendingSessions hobject
    exact view_setObject_same (by rw [hobject]; rfl)
  · rfl

theorem signal_wakes (h : s.signal o = .ok s') : Wakes s s' := by
  unfold signal at h
  split at h
  · rename_i signaled resetType hobject
    exact wakes_of_plain (by rw [hobject]; rfl) h
  · rename_i signaled resetType hobject
    exact wakes_of_plain (by rw [hobject]; rfl) h
  · cases h
    exact Wakes.of_view rfl

theorem view_clear (s : WaitKernel) (o : ObjectId) : (s.clear o).view = s.view := by
  unfold clear
  split
  · rename_i signaled resetType hobject
    exact view_setObject_same (by rw [hobject]; rfl)
  · rename_i signaled resetType hobject
    exact view_setObject_same (by rw [hobject]; rfl)
  · rfl

theorem releaseSemaphore_wakes {releaseCount : Int} (h : s.releaseSemaphore o releaseCount = .ok s') : Wakes s s' := by
  unfold releaseSemaphore at h
  split at h
  · rename_i availableCount maxCount hobject
    split at h
    · exact wakes_of_plain (by rw [hobject]; rfl) h
    · cases h
      exact Wakes.of_view rfl
  · cases h
    exact Wakes.of_view rfl

private theorem view_setHeldMutexes (s : WaitKernel) (t : ThreadId) (objects : List ObjectId) :
    ({ s with heldMutexes := update s.heldMutexes t objects } : WaitKernel).view =
      s.view.setHeldMutexes t objects := rfl

theorem releaseMutex_performs (ht : s.status t = .running) (h : s.releaseMutex t o = .ok s') :
    s.Performs (s.releaseEffects t o) s' := by
  unfold releaseMutex at h
  split at h
  · rename_i lockCount priority holder hobject
    unfold releaseEffects
    rw [hobject]
    dsimp only
    split at h
    · rename_i hother
      cases h
      rw [if_neg (by
        rintro ⟨rfl, hpos⟩
        rcases hother with hother | hother
        · exact hother rfl
        · exact absurd hpos (not_lt.mpr hother))]
      exact Performs.of_view rfl
    · rename_i hown
      simp only [ne_eq, not_or, not_not, not_le] at hown
      obtain ⟨rfl, hpos⟩ := hown
      rw [if_pos ⟨rfl, hpos⟩]
      have hcore : s.view.core o = .mutex lockCount (some holder) := by
        show core (s.object o) = _
        rw [hobject]
        rfl
      have hstep := ViewStep.release hcore hpos (running_ne ht).2
      unfold WaitView.released at hstep
      split at h
      · rename_i hzero
        rw [if_pos hzero] at hstep
        refine Performs.wakes ?_ (wakeupAllWaitingThreads_wakes h)
        refine Performs.one (e := .release o holder) ?_ rfl
        rw [view_setObject, view_updatePriority, view_setObject]
        have hcores : ((s.view.setHeldMutexes holder ((s.heldMutexes holder).erase o)).setCore o
            (core (.mutex 0 priority (some holder)))).setCore o (core (.mutex 0 priority none)) =
            (s.view.setCore o (.mutex 0 none)).setHeldMutexes holder ((s.view.heldMutexes holder).erase o) := by
          unfold WaitView.setCore WaitView.setHeldMutexes
          simp only [Function.update_idem]
          rfl
        rw [view_setHeldMutexes, hcores]
        exact hstep
      · rename_i hzero
        rw [if_neg hzero] at hstep
        cases h
        refine Performs.one (e := .release o holder) ?_ rfl
        rw [view_setObject]
        exact hstep
  · rename_i hnot
    cases h
    unfold releaseEffects
    split
    · rename_i hobject
      exact absurd hobject (hnot _ _ _)
    · exact Performs.of_view rfl

/-- A thread that has ended gets no mutex, and it loses the mutexes `objects` and no others. -/
structure LeavesDead (t : ThreadId) (objects : List ObjectId) (v v' : WaitView) : Prop where
  status : v'.status t = .dead
  heldMutexes : v'.heldMutexes t = v.heldMutexes t
  lost : ∀ o ∈ objects, ∀ lockCount, v'.core o ≠ .mutex lockCount (some t)
  kept : ∀ o ∉ objects, ∀ lockCount, 0 < lockCount → v.core o = .mutex lockCount (some t) →
    v'.core o = .mutex lockCount (some t)
  disowned : ∀ o, (∀ lockCount, v.core o ≠ .mutex lockCount (some t)) →
    ∀ lockCount, v'.core o ≠ .mutex lockCount (some t)

theorem LeavesDead.refl {v : WaitView} (h : v.status t = .dead) : LeavesDead t [] v v :=
  ⟨h, rfl, by simp, fun _ _ _ _ h => h, fun _ h => h⟩

theorem LeavesDead.trans {v v' v'' : WaitView} {objects objects' : List ObjectId} (h : LeavesDead t objects v v')
    (h' : LeavesDead t objects' v' v'') : LeavesDead t (objects ++ objects') v v'' := by
  refine ⟨h'.status, h'.heldMutexes.trans h.heldMutexes, ?_, ?_, fun o ho => h'.disowned o (h.disowned o ho)⟩
  · intro o ho
    rcases List.mem_append.mp ho with ho | ho
    · exact h'.disowned o (h.lost o ho)
    · exact h'.lost o ho
  · intro o ho lockCount hpos hcore
    rw [List.mem_append, not_or] at ho
    exact h'.kept o ho.2 lockCount hpos (h.kept o ho.1 lockCount hpos hcore)

private theorem leavesDead_setCore {v : WaitView} (core : ObjectCore) (hdead : v.status t = .dead)
    (hother : ∀ lockCount, 0 < lockCount → v.core o ≠ .mutex lockCount (some t))
    (hnew : (∀ lockCount, v.core o ≠ .mutex lockCount (some t)) → ∀ lockCount, core ≠ .mutex lockCount (some t)) :
    LeavesDead t [] v (v.setCore o core) := by
  refine ⟨hdead, rfl, by simp, ?_, ?_⟩
  · intro o' _ lockCount hpos hcore
    have ho : o' ≠ o := by
      rintro rfl
      exact hother lockCount hpos hcore
    exact (update_of_ne ho ..).trans hcore
  · intro o' ho' lockCount
    show update v.core o core o' ≠ _
    rw [update_apply]
    split
    · rename_i ho
      exact hnew (ho ▸ ho') lockCount
    · exact ho' lockCount

theorem leavesDead_of_step {v v' : WaitView} {e : WaitEvent} (h : ViewStep v e v') (he : e.isWakeup)
    (hdead : v.status t = .dead) : LeavesDead t [] v v' := by
  cases h with
  | @moves u status hold hnew =>
    have hu : t ≠ u := by
      rintro rfl
      exact hold.2 hdead
    refine ⟨?_, rfl, by simp, fun _ _ _ _ h => h, fun _ ho => ho⟩
    show update v.status u status t = .dead
    rw [update_of_ne hu]
    exact hdead
  | @acquire o u lockCount holder hcore hfree halive =>
    have hu : u ≠ t := by
      rintro rfl
      exact halive hdead
    have hother : ∀ c, 0 < c → v.core o ≠ .mutex c (some t) := by
      intro c hpos hc
      rw [hcore] at hc
      cases hc
      rcases hfree with hfree | hfree
      · omega
      · exact hu (by cases hfree; rfl)
    unfold WaitView.acquired
    split
    · have hset := leavesDead_setCore (.mutex (lockCount + 1) (some u)) hdead hother fun _ c hc => hu (by cases hc; rfl)
      have hheld : LeavesDead t [] (v.setCore o (.mutex (lockCount + 1) (some u)))
          ((v.setCore o (.mutex (lockCount + 1) (some u))).setHeldMutexes u ((v.heldMutexes u).insert o)) :=
        ⟨hdead, update_of_ne (Ne.symm hu) .., by simp, fun _ _ _ _ h => h, fun _ h => h⟩
      exact hset.trans hheld
    · refine leavesDead_setCore _ hdead hother fun hnot c hc => ?_
      cases hc
      exact hnot lockCount hcore
  | @accept o u pending hcore =>
    refine leavesDead_setCore _ hdead (fun c _ hc => ?_) fun _ c hc => by cases hc
    rw [hcore] at hc
    cases hc
  | _ => cases he

theorem Wakes.leavesDead (h : Wakes s s') (hdead : s.status t = .dead) : LeavesDead t [] s.view s'.view := by
  obtain ⟨events, hrun, hevents⟩ := h
  refine hrun.keeps (LeavesDead.refl hdead) fun v e v' he hstep hv => ?_
  exact hv.trans (leavesDead_of_step hstep (hevents e he) hv.status)

theorem releaseThreadMutex_performs {lockCount : Int} (hdead : s.status t = .dead) (hheld : o ∈ s.heldMutexes t)
    (hcore : s.view.core o = .mutex lockCount (some t)) (h : s.releaseThreadMutex o = .ok s') :
    s.Performs [.abandon o t] s' ∧ LeavesDead t [o] s.view s'.view := by
  unfold releaseThreadMutex at h
  split at h
  · rename_i lockCount' priority holder hobject
    have hset : (s.setObject o (.mutex 0 priority none)).view = s.view.setCore o (.mutex 0 none) := view_setObject s o _
    have hwakes := wakeupAllWaitingThreads_wakes h
    constructor
    · refine Performs.wakes (Performs.one ?_ rfl) hwakes
      rw [hset]
      exact .abandon hdead hheld hcore
    · have hleaves : LeavesDead t [o] s.view (s.setObject o (.mutex 0 priority none)).view := by
        rw [hset]
        have hself : (s.view.setCore o (.mutex 0 none)).core o = .mutex 0 none := update_self ..
        refine ⟨hdead, rfl, ?_, ?_, ?_⟩
        · intro o' ho' c hc
          rw [List.mem_singleton.mp ho', hself] at hc
          cases hc
        · intro o' ho' c _ hc
          exact (update_of_ne (List.mem_singleton.not.mp ho') ..).trans hc
        · intro o' ho' c hc
          by_cases ho : o' = o
          · rw [ho, hself] at hc
            cases hc
          · exact ho' c ((update_of_ne ho ..).symm.trans hc)
      exact hleaves.trans (hwakes.leavesDead hleaves.status)
  · rename_i hnot
    unfold view core at hcore
    dsimp only at hcore
    split at hcore
    · rename_i hobject
      exact absurd hobject (hnot _ _ _)
    · cases hcore
    · cases hcore

theorem releaseLoop_performs (hdead : s.status t = .dead) (hnodup : objects.Nodup)
    (hheld : ∀ o ∈ objects, o ∈ s.heldMutexes t ∧
      ∃ lockCount, s.view.core o = .mutex lockCount (some t) ∧ 0 < lockCount)
    (h : objects.foldlM releaseThreadMutex s = .ok s') :
    s.Performs (objects.map fun o => .abandon o t) s' ∧ LeavesDead t objects s.view s'.view := by
  induction objects generalizing s with
  | nil =>
    cases h
    exact ⟨Performs.of_view rfl, LeavesDead.refl hdead⟩
  | cons o objects ih =>
    obtain ⟨s₁, hs₁, h⟩ := ok_of_bind h
    rw [List.nodup_cons] at hnodup
    obtain ⟨hmem, lockCount, hcore, -⟩ := hheld o List.mem_cons_self
    obtain ⟨hone, hleaves⟩ := releaseThreadMutex_performs hdead hmem hcore hs₁
    have hheld₁ : ∀ o' ∈ objects, o' ∈ s₁.heldMutexes t ∧
        ∃ lockCount, s₁.view.core o' = .mutex lockCount (some t) ∧ 0 < lockCount := by
      intro o' ho'
      obtain ⟨hmem', c, hcore', hpos⟩ := hheld o' (List.mem_cons_of_mem _ ho')
      have ho : o' ∉ [o] := by
        rw [List.mem_singleton]
        rintro rfl
        exact hnodup.1 ho'
      rw [show s₁.heldMutexes t = s.heldMutexes t from hleaves.heldMutexes]
      exact ⟨hmem', c, hleaves.kept o' ho c hpos hcore', hpos⟩
    obtain ⟨hrest, hleaves'⟩ := ih hleaves.status hnodup.2 hheld₁ h
    exact ⟨hone.trans hrest, hleaves.trans hleaves'⟩

theorem stop_performs (hholds : ∀ t, s.view.Holds t) (h : s.stop o = .ok s') : s.Performs (s.stopEffects o) s' := by
  unfold stop at h
  split at h
  · rename_i t hobject
    unfold stopEffects
    rw [hobject]
    obtain ⟨s₁, hs₁, h⟩ := ok_of_bind h
    obtain ⟨s₂, hs₂, h⟩ := ok_of_bind h
    cases h
    have hwakes := wakeupAllWaitingThreads_wakes hs₁
    have hleaves := hwakes.leavesDead (t := t) (update_self ..)
    have hleave := view_leaveWaitObjects s₁ t
    rw [← hleave] at hleaves
    have hlist : (s₁.leaveWaitObjects t).heldMutexes t = s.heldMutexes t := hleaves.heldMutexes
    have hheld : ∀ o' ∈ s.heldMutexes t, o' ∈ (s₁.leaveWaitObjects t).heldMutexes t ∧
        ∃ lockCount, (s₁.leaveWaitObjects t).view.core o' = .mutex lockCount (some t) ∧ 0 < lockCount := by
      intro o' ho'
      obtain ⟨c, hcore, hpos⟩ := (hholds t).holder o' ho'
      rw [hlist]
      exact ⟨ho', c, hleaves.kept o' (by simp) c hpos hcore, hpos⟩
    rw [hlist] at hs₂
    obtain ⟨hloop, hleaves'⟩ :=
      releaseLoop_performs (s := s₁.leaveWaitObjects t) hleaves.status (hholds t).nodup hheld hs₂
    have hdie : s.Performs [.die t] (s₁.leaveWaitObjects t) :=
      ((Performs.one .die rfl).wakes hwakes).wakes (Wakes.of_view hleave)
    refine (hdie.trans hloop).trans (Performs.one ?_ rfl)
    refine .forget hleaves'.status fun o' ho' => hleaves'.lost o' ?_
    rwa [show s₂.view.heldMutexes t = s.heldMutexes t from hleaves'.heldMutexes.trans hlist] at ho'
  · rename_i hnot
    cases h
    unfold stopEffects
    split
    · rename_i hobject
      exact absurd hobject (hnot _)
    · exact Performs.of_view rfl

/-- A thread is resumed; one with a request at the end of its delay. -/
theorem resumeFromWait_performs (h : s.resumeFromWait t = .ok s') :
    s.Performs (if s.status t = .waitIPC then [.expire t] else []) s' := by
  have hview := view_resumeFromWait h
  split
  · rename_i hipc
    refine Performs.one (e := .expire t) ?_ rfl
    rw [hview, hipc]
    exact .expire hipc
  · rename_i hipc
    by_cases hdead : s.status t = .dead
    · apply Performs.of_view
      rw [hview, show resumedStatus (s.status t) = s.status t by rw [hdead]; rfl]
      unfold WaitView.setStatus view
      rw [update_eq_self]
    · exact (resumeFromWait_wakes h hipc hdead).performs

theorem threadWakeupCallback_performs (h : s.threadWakeupCallback t = .ok s') :
    s.Performs (s.effects (.timeout t)) s' := by
  have hleave : ∀ status, s.status t = status → status ≠ .waitIPC →
      (s.leaveWaitObjects t).resumeFromWait t = .ok s' → s.Performs (s.effects (.timeout t)) s' := by
    intro status hstatus hipc h
    have hresume := resumeFromWait_performs h
    rw [show (s.leaveWaitObjects t).status t = status from
      (congrFun (congrArg WaitView.status (view_leaveWaitObjects s t)) t).trans hstatus, if_neg hipc] at hresume
    unfold WaitKernel.effects
    dsimp only
    rw [hstatus, if_neg hipc]
    exact (Performs.of_view (view_leaveWaitObjects s t)).trans hresume
  unfold threadWakeupCallback at h
  split at h
  · rename_i hstatus
    obtain ⟨-, -, h⟩ := ok_of_bind h
    exact hleave _ hstatus (by decide) h
  · rename_i hstatus
    obtain ⟨-, -, h⟩ := ok_of_bind h
    exact hleave _ hstatus (by decide) h
  · rename_i hstatus
    obtain ⟨-, -, h⟩ := ok_of_bind h
    exact hleave _ hstatus (by decide) h
  · rename_i hstatus
    obtain ⟨-, -, h⟩ := ok_of_bind h
    exact hleave _ hstatus (by decide) h
  · exact resumeFromWait_performs h

theorem createThread_performs (priority : Nat) :
    s.Performs [.create s.nextObjectId, .createThread s.nextThreadId] (s.createThread priority) := by
  have hcreate : s.Performs [.create s.nextObjectId] (s.createObject (.thread s.nextThreadId)) :=
    createObject_performs (.inl rfl)
  exact hcreate.trans (Performs.one (e := .createThread s.nextThreadId) .createThread rfl)

theorem createMutex_performs {initialLocked : Bool} (ht : s.status t = .running)
    (h : s.createMutex t initialLocked = .ok s') : s.Performs [.create s.nextObjectId] s' := by
  unfold createMutex at h
  have hcreate : s.Performs [.create s.nextObjectId] (s.createObject (.mutex 0 threadPrioLowest none)) :=
    createObject_performs (.inr (.inl rfl))
  split at h
  · exact hcreate.wakes (acquire_wakes h (running_ne ht).2)
  · cases h
    exact hcreate

theorem changeStatus_wakes (s : WaitKernel) (t : ThreadId) (status : ThreadStatus) :
    Wakes s (s.changeStatus t status) := by
  unfold changeStatus
  split
  · rename_i hmem
    refine Wakes.one (e := .moves t) (.moves ?_ ?_) rfl
    · constructor
      · intro hold
        rw [show s.status t = .waitIPC from hold] at hmem
        cases status <;> exact absurd hmem (by decide)
      · intro hold
        rw [show s.status t = .dead from hold] at hmem
        cases status <;> exact absurd hmem (by decide)
    · constructor
      · rintro rfl
        cases hold : s.status t <;> rw [hold] at hmem <;> exact absurd hmem (by decide)
      · rintro rfl
        cases hold : s.status t <;> rw [hold] at hmem <;> exact absurd hmem (by decide)
  · exact Wakes.of_view rfl

theorem resume_wakes (h : s.resume t = .ok s') : Wakes s s' := by
  unfold resume at h
  split at h
  · rename_i hstatus
    refine resumeFromWait_wakes h ?_ ?_
    · intro hipc
      rw [hipc] at hstatus
      exact absurd hstatus (by decide)
    · intro hdead
      rw [hdead] at hstatus
      exact absurd hstatus (by decide)
  · cases h
    exact Wakes.of_view rfl

theorem exec_run {op : Op} (hholds : ∀ t, s.view.Holds t) (h : s.exec op = .ok s') :
    s.Performs (s.effects op) s' := by
  unfold exec at h
  unfold WaitKernel.effects
  cases op with
  | createObject object =>
    dsimp only at h ⊢
    cases h
    split
    · rename_i hfresh
      exact createObject_performs (core_of_isFresh hfresh)
    · exact Performs.of_view rfl
  | createMutex t initialLocked =>
    dsimp only at h ⊢
    split at h
    · rename_i hcalls
      rw [if_pos hcalls]
      exact createMutex_performs (calls_running hcalls) h
    · rename_i hcalls
      rw [if_neg hcalls]
      cases h
      exact Performs.of_view rfl
  | createThread priority =>
    dsimp only at h ⊢
    cases h
    split
    · exact createThread_performs priority
    · exact Performs.of_view rfl
  | waitSynchronization1 t o nanoseconds =>
    dsimp only at h ⊢
    split at h
    · rename_i hcalls
      exact (waitSynchronization1_wakes (calls_running hcalls) h).performs
    · cases h
      exact Performs.of_view rfl
  | waitSynchronizationN t objects waitAll nanoseconds =>
    dsimp only at h ⊢
    split at h
    · rename_i hcalls
      split at h
      · obtain ⟨⟨result, s₁⟩, hs₁, h⟩ := ok_of_bind h
        cases h
        exact (waitAllObjects_wakes (calls_running hcalls) hs₁).performs
      · exact (waitSynchronizationAny_wakes (calls_running hcalls) h).performs
    · cases h
      exact Performs.of_view rfl
  | replyAndReceive t objects replyTarget =>
    dsimp only at h
    split at h
    · rename_i hcalls
      have ht := calls_running hcalls
      cases replyTarget with
      | none => exact (receive_wakes ht h).performs
      | some o =>
        dsimp only at h ⊢
        rw [if_pos hcalls]
        obtain ⟨⟨sent, s₁⟩, hs₁, h⟩ := ok_of_bind h
        obtain ⟨hreply, ht₁⟩ := reply_performs hs₁ ht
        dsimp only at h
        split at h
        · exact hreply.wakes (receive_wakes ht₁ h)
        · cases h
          exact hreply
    · rename_i hcalls
      cases h
      cases replyTarget with
      | none => exact Performs.of_view rfl
      | some o =>
        dsimp only
        rw [if_neg hcalls]
        exact Performs.of_view rfl
  | sendSyncRequest t o handling =>
    dsimp only at h ⊢
    split at h
    · rename_i hcalls
      rw [if_pos hcalls]
      exact handleSyncRequest_performs (calls_running hcalls) h
    · rename_i hcalls
      rw [if_neg hcalls]
      cases h
      exact Performs.of_view rfl
  | closeClient o => exact closeClient_performs h
  | connect o => exact (connect_wakes h).performs
  | accept o =>
    cases h
    exact Performs.of_view (view_accept s o)
  | signal o => exact (signal_wakes h).performs
  | clear o =>
    cases h
    exact Performs.of_view (view_clear s o)
  | releaseSemaphore o releaseCount => exact (releaseSemaphore_wakes h).performs
  | releaseMutex t o =>
    dsimp only at h ⊢
    split at h
    · rename_i hcalls
      rw [if_pos hcalls]
      exact releaseMutex_performs (calls_running hcalls) h
    · rename_i hcalls
      rw [if_neg hcalls]
      cases h
      exact Performs.of_view rfl
  | stop o => exact stop_performs hholds h
  | timeout t => exact threadWakeupCallback_performs h
  | setThreadPriority t priority =>
    dsimp only at h ⊢
    cases h
    split
    · exact Performs.of_view (view_setThreadPriority s t priority)
    · exact Performs.of_view rfl
  | changeStatus t status =>
    cases h
    exact (changeStatus_wakes s t status).performs
  | resume t => exact (resume_wakes h).performs

end WaitKernel

end SweepDSEmu
