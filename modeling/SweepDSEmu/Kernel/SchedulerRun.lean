import SweepDSEmu.Kernel.Scheduler
import SweepDSEmu.Lib.Outcome

/-!
# Runs of the scheduler

`Consistent` is the invariant of the scheduler: a thread that is ready is once in the queue of its core, at the level of
its priority, and no other thread is in a queue.  While a core is rescheduled the thread that was taken from the queue is
an exception, the parameter `popped`.

* A step that changes one thread only is a `relocate`: the queue of its core is changed, and the thread gets a status and
  a priority.  `Consistent.relocate` derives the invariant from what the step does to that thread.
* The steps of a run are `Op`, and `run_consistent` is the invariant of a whole run.
-/

namespace SweepDSEmu

open Function

namespace Scheduler

structure Consistent (popped : Option ThreadId) (s : Scheduler) : Prop where
  count : ∀ c p t, (s.managers c).readyQueue.count p t =
    if s.status t = .ready ∧ s.coreId t = c ∧ s.currentPriority t = p ∧ popped ≠ some t then 1 else 0
  running : ∀ t, s.status t = .running → (s.managers (s.coreId t)).currentThread = some t
  current : ∀ c t, (s.managers c).currentThread = some t → s.coreId t = c ∧ t < s.nextObjectId
  created : ∀ t, s.status t ≠ .dead → t < s.nextObjectId
  priority : ∀ t, s.currentPriority t < numQueues
  nominal : ∀ t, s.nominalPriority t < numQueues
  wf : ∀ c, (s.managers c).readyQueue.WF numQueues
  linked : ∀ t, t < s.nextObjectId → (s.managers (s.coreId t)).readyQueue.Linked (s.currentPriority t)
  warnings : ∀ c, (s.managers c).warnings = 0

section Basic

variable {s : Scheduler} {t : ThreadId} {core c : Nat}

theorem managers_modifyManager (f : ThreadManager → ThreadManager) :
    (s.modifyManager core f).managers c = if c = core then f (s.managers core) else s.managers c := by
  by_cases h : c = core
  · rw [if_pos h, h]
    exact update_self ..
  · rw [if_neg h]
    exact update_of_ne h ..

theorem readyQueue_modifyQueue (f : ThreadQueueList ThreadId → ThreadQueueList ThreadId) :
    ((s.modifyQueue core f).managers c).readyQueue =
      if c = core then f (s.managers core).readyQueue else (s.managers c).readyQueue := by
  unfold modifyQueue
  rw [managers_modifyManager]
  split <;> rfl

theorem manager_modifyQueue (f : ThreadQueueList ThreadId → ThreadQueueList ThreadId) :
    ((s.modifyQueue core f).managers c).currentThread = (s.managers c).currentThread ∧
      ((s.modifyQueue core f).managers c).threadList = (s.managers c).threadList ∧
      ((s.modifyQueue core f).managers c).warnings = (s.managers c).warnings := by
  unfold modifyQueue
  rw [managers_modifyManager]
  split
  · rename_i h
    rw [h]
    exact ⟨rfl, rfl, rfl⟩
  · exact ⟨rfl, rfl, rfl⟩

theorem status_setStatus (status : ThreadStatus) (u : ThreadId) :
    (s.setStatus t status).status u = if u = t then status else s.status u := by
  exact update_apply ..

end Basic

def relocate (s : Scheduler) (t : ThreadId) (f : ThreadQueueList ThreadId → ThreadQueueList ThreadId)
    (status : ThreadStatus) (priority : Nat) : Scheduler :=
  { s.modifyQueue (s.coreId t) f with
    status := Function.update s.status t status
    currentPriority := Function.update s.currentPriority t priority }

section Relocate

variable {popped : Option ThreadId} {s : Scheduler} {t : ThreadId}

structure Moves (t : ThreadId) (q q' : ThreadQueueList ThreadId) : Prop where
  count : ∀ p u, u ≠ t → q'.count p u = q.count p u
  wf : q.WF numQueues → q'.WF numQueues
  linked : ∀ p, q.Linked p → q'.Linked p

variable {priority : Nat} {status : ThreadStatus}

theorem Consistent.relocate (h : Consistent popped s) {popped' : Option ThreadId}
    {f : ThreadQueueList ThreadId → ThreadQueueList ThreadId}
    (hf : Moves t (s.managers (s.coreId t)).readyQueue (f (s.managers (s.coreId t)).readyQueue))
    (hpopped : ∀ u, u ≠ t → (popped' = some u ↔ popped = some u))
    (hcount : ∀ p, (f (s.managers (s.coreId t)).readyQueue).count p t =
      if status = .ready ∧ priority = p ∧ popped' ≠ some t then 1 else 0)
    (hrunning : status = .running → s.status t = .running) (hcreated : status ≠ .dead → t < s.nextObjectId)
    (hpriority : priority < numQueues)
    (hlinked : t < s.nextObjectId → (f (s.managers (s.coreId t)).readyQueue).Linked priority) :
    Consistent popped' (s.relocate t f status priority) := by
  have hqueue : ∀ c, ((s.relocate t f status priority).managers c).readyQueue =
      if c = s.coreId t then f (s.managers (s.coreId t)).readyQueue else (s.managers c).readyQueue := fun c =>
    readyQueue_modifyQueue f
  have hstatus : ∀ u, (s.relocate t f status priority).status u = if u = t then status else s.status u := fun u =>
    update_apply ..
  have hprio : ∀ u, (s.relocate t f status priority).currentPriority u =
      if u = t then priority else s.currentPriority u := fun u => update_apply ..
  have hcur : ∀ c, ((s.relocate t f status priority).managers c).currentThread = (s.managers c).currentThread :=
    fun c => (manager_modifyQueue f).1
  constructor
  case count =>
    intro c p u
    rw [hqueue, hstatus, hprio]
    show _ = if _ ∧ s.coreId u = c ∧ _ then 1 else 0
    by_cases hu : u = t
    · rw [if_pos hu, if_pos hu, hu]
      by_cases hc : c = s.coreId t
      · rw [if_pos hc, hcount]
        simp [hc]
      · rw [if_neg hc, h.count]
        simp [Ne.symm hc]
    · rw [if_neg hu, if_neg hu]
      by_cases hc : c = s.coreId t
      · rw [if_pos hc, hf.count p u hu, h.count, hc]
        simp only [ne_eq, hpopped u hu]
      · rw [if_neg hc, h.count]
        simp only [ne_eq, hpopped u hu]
  case running =>
    intro u hrun
    rw [hstatus] at hrun
    rw [hcur]
    split at hrun
    · rename_i hu
      rw [hu]
      exact h.running t (hrunning hrun)
    · exact h.running u hrun
  case current =>
    intro c u hc
    rw [hcur] at hc
    exact h.current c u hc
  case created =>
    intro u hd
    rw [hstatus] at hd
    split at hd
    · rename_i hu
      rw [hu]
      exact hcreated hd
    · exact h.created u hd
  case priority =>
    intro u
    rw [hprio]
    split
    · exact hpriority
    · exact h.priority u
  case nominal => exact h.nominal
  case wf =>
    intro c
    rw [hqueue]
    split
    · exact hf.wf (h.wf _)
    · exact h.wf c
  case linked =>
    intro u hlt
    rw [hqueue, hprio]
    show (if s.coreId u = s.coreId t then _ else _ : ThreadQueueList ThreadId).Linked _
    by_cases hu : u = t
    · rw [hu, if_pos rfl, if_pos rfl]
      exact hlinked (hu ▸ hlt)
    · have hl := h.linked u hlt
      split
      · rename_i hc
        rw [hc] at hl
        exact hf.linked _ hl
      · exact hl
  case warnings =>
    intro c
    have hw : ((s.modifyQueue (s.coreId t) f).managers c).warnings = (s.managers c).warnings :=
      (manager_modifyQueue f).2.2
    exact hw.trans (h.warnings c)

theorem Consistent.of_eq (h : Consistent popped s) {s' : Scheduler} (hstatus : s'.status = s.status)
    (hcurrent : s'.currentPriority = s.currentPriority) (hnominal : s'.nominalPriority = s.nominalPriority)
    (hcore : s'.coreId = s.coreId) (hmanagers : s'.managers = s.managers) (hnext : s'.nextObjectId = s.nextObjectId) :
    Consistent popped s' := by
  constructor
  · simpa only [hstatus, hcurrent, hcore, hmanagers] using h.count
  · simpa only [hstatus, hcore, hmanagers] using h.running
  · simpa only [hcore, hmanagers, hnext] using h.current
  · simpa only [hstatus, hnext] using h.created
  · simpa only [hcurrent] using h.priority
  · simpa only [hnominal] using h.nominal
  · simpa only [hmanagers] using h.wf
  · simpa only [hcurrent, hcore, hmanagers, hnext] using h.linked
  · simpa only [hmanagers] using h.warnings

theorem Moves.refl (q : ThreadQueueList ThreadId) : Moves t q q := ⟨fun _ _ _ => rfl, id, fun _ => id⟩

theorem Moves.pushBack (q : ThreadQueueList ThreadId) (p : Nat) : Moves t q (q.pushBack p t) where
  count := by
    intro i u hu
    rw [ThreadQueueList.count_pushBack]
    simp [hu]
  wf := fun hwf => hwf.pushBack p t
  linked := fun _ hl => hl

theorem Moves.pushFront (q : ThreadQueueList ThreadId) (p : Nat) : Moves t q (q.pushFront p t) where
  count := by
    intro i u hu
    rw [ThreadQueueList.count_pushFront]
    simp [hu]
  wf := fun hwf => hwf.pushFront p t
  linked := fun _ hl => hl

theorem Moves.remove (q : ThreadQueueList ThreadId) (p : Nat) : Moves t q (q.remove p t) where
  count := by
    intro i u hu
    rw [ThreadQueueList.count_remove]
    simp [hu]
  wf := fun hwf => hwf.remove p t
  linked := fun _ hl => hl

theorem Moves.prepare (q : ThreadQueueList ThreadId) {p : Nat} (hp : p < numQueues) : Moves t q (q.prepare p) where
  count := fun i u _ => q.count_prepare p i u
  wf := fun hwf => hwf.prepare hp
  linked := fun i hl => (q.linked_prepare p i).2 (Or.inr hl)

theorem Moves.move (q : ThreadQueueList ThreadId) (p : Nat) {p' : Nat} (hp : p' < numQueues) :
    Moves t q (q.move t p p') where
  count := by
    intro i u hu
    rw [ThreadQueueList.count_move]
    simp [hu]
  wf := fun hwf => hwf.move t p hp
  linked := fun i hl => (q.linked_move t p p' i).2 (Or.inr hl)

private theorem Consistent.count_own (h : Consistent popped s) (p : Nat) :
    (s.managers (s.coreId t)).readyQueue.count p t =
      if s.status t = .ready ∧ s.currentPriority t = p ∧ popped ≠ some t then 1 else 0 := by
  rw [h.count]
  simp

private theorem Consistent.count_eq_zero (h : Consistent popped s) (hready : s.status t ≠ .ready) (p : Nat) :
    (s.managers (s.coreId t)).readyQueue.count p t = 0 := by
  rw [h.count_own, if_neg (fun hc => hready hc.1)]

theorem Consistent.boostPriority (h : Consistent none s) (t : ThreadId)
    (hp : priority < numQueues) : Consistent none (s.boostPriority t priority) := by
  by_cases hready : s.status t = .ready
  · have heq : s.boostPriority t priority =
        s.relocate t (fun q => q.move t (s.currentPriority t) priority) (s.status t) priority := by
      unfold Scheduler.boostPriority Scheduler.relocate
      rw [if_pos hready, update_eq_self]
      rfl
    rw [heq]
    refine h.relocate (Moves.move _ _ hp) (fun _ _ => Iff.rfl) ?_ id (h.created t) hp ?_
    · intro p
      rw [ThreadQueueList.count_move, h.count_own]
      by_cases hold : p = s.currentPriority t
      · simp [hold, hready, eq_comm]
      · simp [hold, Ne.symm hold, hready, eq_comm]
    · intro _
      exact (ThreadQueueList.linked_move _ _ _ _ _).2 (Or.inl rfl)
  · have heq : s.boostPriority t priority = s.relocate t (fun q => q.prepare priority) (s.status t) priority := by
      unfold Scheduler.boostPriority Scheduler.relocate
      rw [if_neg hready, update_eq_self]
      rfl
    rw [heq]
    refine h.relocate (Moves.prepare _ hp) (fun _ _ => Iff.rfl) ?_ id (h.created t) hp ?_
    · intro p
      rw [ThreadQueueList.count_prepare, h.count_eq_zero hready, if_neg (fun hc => hready hc.1)]
    · intro _
      exact (ThreadQueueList.linked_prepare _ _ _).2 (Or.inl rfl)

theorem Consistent.makeReady (h : Consistent none s) (hready : s.status t ≠ .ready) (hdead : s.status t ≠ .dead) :
    Consistent none (s.makeReady t) := by
  have heq : s.makeReady t = s.relocate t (fun q => q.pushBack (s.currentPriority t) t) .ready (s.currentPriority t) := by
    unfold Scheduler.makeReady Scheduler.relocate
    rw [update_eq_self]
    rfl
  have hlt := h.created t hdead
  rw [heq]
  refine h.relocate (Moves.pushBack _ _) (fun _ _ => Iff.rfl) ?_ ?_ (fun _ => hlt) (h.priority t) (h.linked t)
  · intro p
    rw [ThreadQueueList.count_pushBack, h.count_eq_zero hready]
    simp [eq_comm]
  · intro hrun
    cases hrun

theorem Consistent.resumeFromWait (h : Consistent none s) (t : ThreadId) : Consistent none (s.resumeFromWait t) := by
  unfold Scheduler.resumeFromWait
  cases hst : s.status t with
  | ready => exact h
  | running => exact h
  | dead => exact h
  | _ => exact h.makeReady (by rw [hst]; decide) (by rw [hst]; decide)

theorem Consistent.setStatus (h : Consistent popped s) (hready : s.status t ≠ .ready ∨ popped = some t) (hs : status ≠ .ready) (hr : status ≠ .running)
    (hlt : status ≠ .dead → t < s.nextObjectId) {popped' : Option ThreadId}
    (hpopped : ∀ u, u ≠ t → (popped' = some u ↔ popped = some u)) : Consistent popped' (s.setStatus t status) := by
  have hrel : Consistent popped' (s.relocate t id status (s.currentPriority t)) := by
    refine h.relocate (Moves.refl _) hpopped ?_ (fun hrun => (hr hrun).elim) hlt (h.priority t) (h.linked t)
    intro p
    rw [id, h.count_own, if_neg, if_neg (fun hc => hs hc.1)]
    rintro ⟨hst, -, hpop⟩
    rcases hready with hready | hready
    · exact hready hst
    · exact hpop hready
  refine hrel.of_eq rfl ?_ rfl rfl ?_ rfl
  · exact (update_eq_self ..).symm
  · exact (update_eq_self ..).symm

private theorem Consistent.takeOut (h : Consistent none s) (hready : s.status t = .ready)
    (hs : status ≠ .ready) (hr : status ≠ .running) :
    Consistent none ((s.modifyQueue (s.coreId t) fun q => q.remove (s.currentPriority t) t).setStatus t status) := by
  have hrel : Consistent none (s.relocate t (fun q => q.remove (s.currentPriority t) t) status
      (s.currentPriority t)) := by
    refine h.relocate (Moves.remove _ _) (fun _ _ => Iff.rfl) ?_ (fun hrun => (hr hrun).elim) ?_ (h.priority t)
      (h.linked t)
    · intro p
      rw [ThreadQueueList.count_remove, h.count_own, if_neg (fun hc : status = .ready ∧ _ => hs hc.1)]
      by_cases hp : p = s.currentPriority t
      · simp [hp]
      · simp [hp, Ne.symm hp]
    · intro _
      exact h.created t (by rw [hready]; decide)
  refine hrel.of_eq rfl ?_ rfl rfl rfl rfl
  exact (update_eq_self ..).symm

theorem Consistent.kill (h : Consistent none s) (t : ThreadId) : Consistent none (s.kill t) := by
  have h₁ : Consistent none (s.unscheduleWakeup t) := h.of_eq rfl rfl rfl rfl rfl rfl
  unfold Scheduler.kill
  dsimp only
  by_cases hready : (s.unscheduleWakeup t).status t = .ready
  · rw [if_pos hready]
    exact h₁.takeOut hready (by decide) (by decide)
  · rw [if_neg hready]
    exact h₁.setStatus (Or.inl hready) (by decide) (by decide) (fun hd => (hd rfl).elim) fun _ _ => Iff.rfl

theorem Consistent.updatePriority (h : Consistent none s) (t : ThreadId) (mutexPriorities : List Nat) :
    Consistent none (s.updatePriority t mutexPriorities) := by
  have hle : ∀ (l : List Nat) n, l.foldl min n ≤ n := by
    intro l
    induction l with
    | nil => exact fun n => Nat.le_refl n
    | cons p l ih => exact fun n => (ih (min n p)).trans (Nat.min_le_left n p)
  exact h.boostPriority t ((hle mutexPriorities _).trans_lt (h.nominal t))

theorem Consistent.setPriority (h : Consistent none s) (t : ThreadId)
    (hp : priority ≤ threadPrioLowest) : ∃ s', s.setPriority t priority = .ok s' ∧ Consistent none s' := by
  have hlt : priority < numQueues := Nat.lt_succ_of_le hp
  have hb := h.boostPriority t hlt
  unfold Scheduler.setPriority
  rw [if_pos hp]
  have hnominal : ∀ u, update s.nominalPriority t priority u < numQueues := by
    intro u
    rw [update_apply]
    split
    · exact hlt
    · exact h.nominal u
  refine ⟨_, rfl, ?_⟩
  exact ⟨hb.count, hb.running, hb.current, hb.created, hb.priority, hnominal, hb.wf, hb.linked, hb.warnings⟩

theorem Consistent.applyEffect (h : Consistent none s) (e : Effect) : Consistent none (s.applyEffect e) := by
  cases e with
  | resume t => exact h.resumeFromWait t
  | updatePriority t mutexPriorities => exact h.updatePriority t mutexPriorities

theorem Consistent.stop (h : Consistent none s) (t : ThreadId) (effects : List Effect) :
    Consistent none (s.stop t effects) := by
  unfold Scheduler.stop
  have hk := h.kill t
  generalize s.kill t = s₁ at hk
  induction effects generalizing s₁ with
  | nil => exact hk
  | cons e effects ih => exact ih (s₁.applyEffect e) (hk.applyEffect e)

theorem Consistent.unlist (h : Consistent popped s) (core : Nat) (t : ThreadId) :
    Consistent popped (s.unlist core t) := by
  have hm : ∀ c, ((s.unlist core t).managers c).readyQueue = (s.managers c).readyQueue ∧
      ((s.unlist core t).managers c).currentThread = (s.managers c).currentThread ∧
      ((s.unlist core t).managers c).warnings = (s.managers c).warnings := by
    intro c
    unfold Scheduler.unlist
    rw [managers_modifyManager]
    split
    · rename_i hc
      rw [hc]
      exact ⟨rfl, rfl, rfl⟩
    · exact ⟨rfl, rfl, rfl⟩
  constructor
  · intro c p u
    rw [(hm c).1]
    exact h.count c p u
  · intro u hrun
    exact (hm _).2.1.trans (h.running u hrun)
  · intro c u hcur
    rw [(hm c).2.1] at hcur
    exact h.current c u hcur
  · exact h.created
  · exact h.priority
  · exact h.nominal
  · intro c
    rw [(hm c).1]
    exact h.wf c
  · intro u hlt
    have hl := h.linked u hlt
    rw [← (hm (s.coreId u)).1] at hl
    exact hl
  · intro c
    exact (hm c).2.2.trans (h.warnings c)

theorem Consistent.dead_of_le (h : Consistent popped s) (ht : s.nextObjectId ≤ t) : s.status t = .dead := by
  by_contra hd
  exact Nat.not_lt.mpr ht (h.created t hd)

private theorem Consistent.spawn (h : Consistent none s) (ht : t = s.nextObjectId)
    (hp : priority ≤ threadPrioLowest) (core process : Nat) (category : ResourceLimitCategory) :
    Consistent none (s.createThread t priority core process category false) := by
  have hlt : priority < numQueues := Nat.lt_succ_of_le hp
  have hdead := h.dead_of_le ht.ge
  have hne : ∀ {u}, u < s.nextObjectId → u ≠ t := fun hu => Nat.ne_of_lt (lt_of_lt_of_le hu ht.ge)
  have hm : ∀ c, ((s.createThread t priority core process category false).managers c).currentThread =
        (s.managers c).currentThread ∧
      ((s.createThread t priority core process category false).managers c).warnings = (s.managers c).warnings ∧
      ((s.createThread t priority core process category false).managers c).readyQueue =
        if c = core then (s.managers core).readyQueue.prepare priority else (s.managers c).readyQueue := by
    intro c
    have heq : (s.createThread t priority core process category false).managers c =
        (s.modifyManager core fun m =>
          { m with threadList := m.threadList ++ [t], readyQueue := m.readyQueue.prepare priority }).managers c := rfl
    rw [heq, managers_modifyManager]
    split
    · rename_i hc
      rw [hc]
      exact ⟨rfl, rfl, rfl⟩
    · exact ⟨rfl, rfl, rfl⟩
  have hstatus : ∀ u, (s.createThread t priority core process category false).status u =
      if u = t then .dormant else s.status u := fun u => update_apply ..
  have hcore : ∀ u, (s.createThread t priority core process category false).coreId u =
      if u = t then core else s.coreId u := fun u => update_apply ..
  have hprio : ∀ u, (s.createThread t priority core process category false).currentPriority u =
      if u = t then priority else s.currentPriority u := fun u => update_apply ..
  have hnext : (s.createThread t priority core process category false).nextObjectId = max s.nextObjectId (t + 1) := rfl
  constructor
  case count =>
    intro c p u
    have hold : ((s.createThread t priority core process category false).managers c).readyQueue.count p u =
        (s.managers c).readyQueue.count p u := by
      rw [(hm c).2.2]
      split
      · rename_i hc
        rw [ThreadQueueList.count_prepare, hc]
      · rfl
    rw [hold, hstatus, hcore, hprio, h.count]
    by_cases hu : u = t
    · rw [if_pos hu, hu, hdead]
      simp
    · rw [if_neg hu, if_neg hu, if_neg hu]
  case running =>
    intro u hrun
    rw [hstatus] at hrun
    split at hrun
    · cases hrun
    · rename_i hu
      rw [hcore, if_neg hu, (hm _).1]
      exact h.running u hrun
  case current =>
    intro c u hcur
    rw [(hm c).1] at hcur
    obtain ⟨hc, hu⟩ := h.current c u hcur
    rw [hcore, if_neg (hne hu), hnext]
    exact ⟨hc, lt_max_of_lt_left hu⟩
  case created =>
    intro u hd
    rw [hstatus] at hd
    split at hd
    · rename_i hu
      rw [hu]
      exact lt_max_of_lt_right (Nat.lt_succ_self t)
    · exact lt_max_of_lt_left (h.created u hd)
  case priority =>
    intro u
    rw [hprio]
    split
    · exact hlt
    · exact h.priority u
  case nominal =>
    intro u
    show update s.nominalPriority t priority u < numQueues
    rw [update_apply]
    split
    · exact hlt
    · exact h.nominal u
  case wf =>
    intro c
    rw [(hm c).2.2]
    split
    · exact (h.wf core).prepare hlt
    · exact h.wf c
  case linked =>
    intro u hu
    rw [hcore, hprio, (hm _).2.2]
    by_cases hut : u = t
    · rw [if_pos hut, if_pos hut, if_pos rfl]
      exact (ThreadQueueList.linked_prepare _ _ _).2 (Or.inl rfl)
    · rw [if_neg hut, if_neg hut]
      have hold : u < s.nextObjectId := by
        rw [hnext, max_eq_right (ht ▸ Nat.le_succ t)] at hu
        rw [← ht]
        exact lt_of_le_of_ne (Nat.le_of_lt_succ hu) hut
      have hl := h.linked u hold
      split
      · rename_i hc
        rw [← hc]
        exact (ThreadQueueList.linked_prepare _ _ _).2 (Or.inr hl)
      · exact hl
  case warnings =>
    intro c
    rw [(hm c).2.1]
    exact h.warnings c

theorem Consistent.createThread (h : Consistent none s) (ht : t = s.nextObjectId)
    (hp : priority ≤ threadPrioLowest) (core process : Nat) (category : ResourceLimitCategory) (ready : Bool) :
    Consistent none (s.createThread t priority core process category ready) := by
  have hspawn := h.spawn ht hp core process category
  cases ready with
  | false => exact hspawn
  | true =>
    have hdormant : (s.createThread t priority core process category false).status t = .dormant :=
      update_self ..
    have heq : s.createThread t priority core process category true =
        (s.createThread t priority core process category false).makeReady t := rfl
    exact hspawn.makeReady (by rw [hdormant]; decide) (by rw [hdormant]; decide)

theorem Consistent.exitCurrentThread (h : Consistent none s) {core : Nat} (hcur : (s.managers core).currentThread ≠ none)
    (effects : ThreadId → List Effect) :
    ∃ s', s.exitCurrentThread core effects = .ok s' ∧ Consistent none s' := by
  unfold Scheduler.exitCurrentThread
  cases hc : (s.managers core).currentThread with
  | none => exact (hcur hc).elim
  | some t => exact ⟨_, rfl, (h.stop t (effects t)).unlist core t⟩

theorem Consistent.terminateProcessThreads (h : Consistent none s) (core process : Nat)
    (effects : ThreadId → List Effect) :
    ∃ s', s.terminateProcessThreads core process effects = .ok s' ∧ Consistent none s' := by
  have hloop : ∀ (l : List ThreadId) s, Consistent none s →
      Consistent none (l.foldl (terminateOthers core process effects) s) := by
    intro l
    induction l with
    | nil => exact fun s hs => hs
    | cons t l ih =>
      intro s hs
      apply ih
      unfold terminateOthers
      split
      · exact hs
      · exact (hs.stop t (effects t)).unlist core t
  unfold Scheduler.terminateProcessThreads
  have hs := hloop (s.managers core).threadList s h
  generalize (s.managers core).threadList.foldl (terminateOthers core process effects) s = s₁ at hs
  cases hc : (s₁.managers core).currentThread with
  | none =>
    refine ⟨s₁, ?_, hs⟩
    dsimp only
    rw [hc]
  | some t =>
    dsimp only
    rw [hc]
    dsimp only
    split
    · exact hs.exitCurrentThread (by rw [hc]; exact Option.some_ne_none t) effects
    · exact ⟨s₁, rfl, hs⟩

theorem Consistent.waitCurrentThread (h : Consistent none s) (core : Nat)
    (hs : status ≠ .ready) (hr : status ≠ .running) : Consistent none (s.waitCurrentThread core status) := by
  unfold Scheduler.waitCurrentThread
  split
  · exact h
  · rename_i t hc
    split
    · rename_i hrun
      refine h.setStatus (Or.inl ?_) hs hr (fun _ => (h.current core t hc).2) fun _ _ => Iff.rfl
      rw [hrun]
      decide
    · exact h

theorem Consistent.wakeupSleepingThreads (h : Consistent none s) : Consistent none s.wakeupSleepingThreads := by
  have hloop : ∀ (l : List ThreadId) s, Consistent none s → Consistent none (l.foldl wakeupSleeping s) := by
    intro l
    induction l with
    | nil => exact fun s hs => hs
    | cons t l ih =>
      intro s hs
      apply ih
      unfold wakeupSleeping
      split
      · exact hs.resumeFromWait t
      · exact hs
  exact (hloop s.cpuLimiter.sleepingThreadIds s h).of_eq rfl rfl rfl rfl rfl rfl

end Relocate

structure SameLife (s s' : Scheduler) : Prop where
  dead : ∀ t, s'.status t = .dead ↔ s.status t = .dead
  ownerProcess : s'.ownerProcess = s.ownerProcess
  coreId : s'.coreId = s.coreId
  nextObjectId : s'.nextObjectId = s.nextObjectId
  threadList : ∀ c, (s'.managers c).threadList = (s.managers c).threadList

section SameLife

variable {s s' s'' : Scheduler} {t : ThreadId}

theorem SameLife.refl (s : Scheduler) : SameLife s s := ⟨fun _ => Iff.rfl, rfl, rfl, rfl, fun _ => rfl⟩

theorem SameLife.trans (h : SameLife s s') (h' : SameLife s' s'') : SameLife s s'' where
  dead := fun t => (h'.dead t).trans (h.dead t)
  ownerProcess := h'.ownerProcess.trans h.ownerProcess
  coreId := h'.coreId.trans h.coreId
  nextObjectId := h'.nextObjectId.trans h.nextObjectId
  threadList := fun c => (h'.threadList c).trans (h.threadList c)

theorem sameLife_modifyQueue (core : Nat) (f : ThreadQueueList ThreadId → ThreadQueueList ThreadId) :
    SameLife s (s.modifyQueue core f) where
  dead := fun _ => Iff.rfl
  ownerProcess := rfl
  coreId := rfl
  nextObjectId := rfl
  threadList := fun _ => (manager_modifyQueue f).2.1

theorem sameLife_setStatus {status : ThreadStatus} (hdead : s.status t ≠ .dead) (hs : status ≠ .dead) :
    SameLife s (s.setStatus t status) where
  dead := by
    intro u
    rw [status_setStatus]
    split
    · rename_i hu
      rw [hu]
      exact iff_of_false hs hdead
    · rfl
  ownerProcess := rfl
  coreId := rfl
  nextObjectId := rfl
  threadList := fun _ => rfl

theorem sameLife_boostPriority (t : ThreadId) (priority : Nat) : SameLife s (s.boostPriority t priority) := by
  have hcur : ∀ s' : Scheduler, SameLife s' { s' with
      currentPriority := update s'.currentPriority t priority } := fun s' =>
    ⟨fun _ => Iff.rfl, rfl, rfl, rfl, fun _ => rfl⟩
  unfold Scheduler.boostPriority
  split
  · exact (sameLife_modifyQueue _ _).trans (hcur _)
  · exact (sameLife_modifyQueue _ _).trans (hcur _)

theorem sameLife_resumeFromWait (t : ThreadId) : SameLife s (s.resumeFromWait t) := by
  unfold Scheduler.resumeFromWait
  cases hst : s.status t with
  | ready => exact SameLife.refl s
  | running => exact SameLife.refl s
  | dead => exact SameLife.refl s
  | _ =>
    refine (sameLife_modifyQueue _ _).trans (sameLife_setStatus ?_ (by decide))
    show s.status t ≠ .dead
    rw [hst]
    decide

theorem sameLife_applyEffect (e : Effect) : SameLife s (s.applyEffect e) := by
  cases e with
  | resume t => exact sameLife_resumeFromWait t
  | updatePriority t mutexPriorities => exact sameLife_boostPriority t _

end SameLife

section Pop

variable {s : Scheduler} {q : ThreadQueueList ThreadId}

def SameLinks (q q' : ThreadQueueList ThreadId) : Prop := q'.first = q.first ∧ q'.nextNonempty = q.nextNonempty

def PopLaw (pop : ThreadQueueList ThreadId → Option (Option (Nat × ThreadId) × ThreadQueueList ThreadId))
    (q : ThreadQueueList ThreadId) : Prop :=
  ∀ q', SameLinks q q' → pop q' = some (none, q') ∨
    ∃ p t, pop q' = some (some (p, t), q'.dropFront p) ∧ q'.data p = t :: (q'.data p).tail

theorem popLaw_popFirst (hq : q.WF numQueues) : PopLaw (ThreadQueueList.popFirst numQueues) q := by
  rintro q' ⟨hfirst, hnext⟩
  exact (hq.congr hfirst hnext).popFirst_cases

theorem popLaw_popFirstBetter (hq : q.WF numQueues) {stop : Nat} (hstop : q.Linked stop) :
    PopLaw (ThreadQueueList.popFirstBetter numQueues stop) q := by
  rintro q' ⟨hfirst, hnext⟩
  have hstop' : q'.Linked stop := by
    unfold ThreadQueueList.Linked at hstop ⊢
    rw [hnext]
    exact hstop
  exact (hq.congr hfirst hnext).popFirstBetter_cases hstop'

theorem count_pushSkipped (q : ThreadQueueList ThreadId) (skipped : List (Nat × ThreadId)) (i : Nat) (u : ThreadId) :
    (pushSkipped q skipped).count i u = q.count i u + skipped.count (i, u) := by
  induction skipped with
  | nil => rfl
  | cons e skipped ih =>
    obtain ⟨p, t⟩ := e
    show ((pushSkipped q skipped).pushFront p t).count i u = _
    rw [ThreadQueueList.count_pushFront, ih, List.count_cons]
    by_cases h : i = p ∧ u = t
    · rw [if_pos h, h.1, h.2]
      simp
      omega
    · rw [if_neg h, if_neg]
      · omega
      · simp only [beq_iff_eq, Prod.mk.injEq]
        exact fun hc => h ⟨hc.1.symm, hc.2.symm⟩

theorem sameLinks_pushSkipped (q : ThreadQueueList ThreadId) (skipped : List (Nat × ThreadId)) :
    SameLinks q (pushSkipped q skipped) := by
  induction skipped with
  | nil => exact ⟨rfl, rfl⟩
  | cons e skipped ih => exact ih

/-- The loop that takes threads from the queue until one can be scheduled.  Together with the skipped threads nothing
but this thread is lost. -/
theorem popSchedulable_ok {pop : ThreadQueueList ThreadId → Option (Option (Nat × ThreadId) × ThreadQueueList ThreadId)}
    {q₀ : ThreadQueueList ThreadId} (hpop : PopLaw pop q₀) (n : Nat) :
    ∀ q skipped, SameLinks q₀ q → (∀ i u, 0 < q.count i u → i < numQueues) → q.size numQueues < n →
      ∃ next q' skipped', s.popSchedulable pop n q skipped = .ok (next, q', skipped') ∧ SameLinks q₀ q' ∧
        (next = none ∧ (∀ i u, q.count i u + skipped.count (i, u) = q'.count i u + skipped'.count (i, u)) ∨
          ∃ p t, next = some t ∧ 0 < q.count p t ∧ ∀ i u, q.count i u + skipped.count (i, u) =
            q'.count i u + skipped'.count (i, u) + if i = p ∧ u = t then 1 else 0) := by
  induction n with
  | zero =>
    intro q skipped _ _ hsize
    exact absurd hsize (Nat.not_lt_zero _)
  | succ n ih =>
    intro q skipped hlinks hlow hsize
    unfold popSchedulable
    rcases hpop q hlinks with hnone | ⟨p, t, hsome, hdata⟩
    · rw [hnone]
      exact ⟨none, q, skipped, rfl, hlinks, Or.inl ⟨rfl, fun _ _ => rfl⟩⟩
    · rw [hsome]
      dsimp only
      have hdrop := q.count_dropFront hdata
      have hpos : 0 < q.count p t := by
        rw [hdrop p t]
        simp
      split
      · refine ⟨some t, q.dropFront p, skipped, rfl, hlinks, Or.inr ⟨p, t, rfl, hpos, ?_⟩⟩
        intro i u
        rw [hdrop i u]
        omega
      · have hlow' : ∀ i u, 0 < (q.dropFront p).count i u → i < numQueues := by
          intro i u hiu
          apply hlow i u
          rw [hdrop i u]
          omega
        have hsize' := q.size_dropFront hdata (hlow p t hpos)
        obtain ⟨next, q', skipped', hrun, hlinks', hres⟩ := ih (q.dropFront p) (skipped ++ [(p, t)]) hlinks hlow'
          (by omega)
        refine ⟨next, q', skipped', hrun, hlinks', ?_⟩
        have hmove : ∀ i u, q.count i u + skipped.count (i, u) =
            (q.dropFront p).count i u + (skipped ++ [(p, t)]).count (i, u) := by
          intro i u
          rw [hdrop i u, List.count_append, List.count_singleton]
          by_cases h : i = p ∧ u = t
          · rw [if_pos h, h.1, h.2]
            simp
            omega
          · rw [if_neg h, if_neg]
            · omega
            · simp only [beq_iff_eq, Prod.mk.injEq]
              exact fun hc => h ⟨hc.1.symm, hc.2.symm⟩
        rcases hres with ⟨hnext, hcount⟩ | ⟨p', t', hnext, hpos', hcount⟩
        · exact Or.inl ⟨hnext, fun i u => (hmove i u).trans (hcount i u)⟩
        · refine Or.inr ⟨p', t', hnext, ?_, fun i u => (hmove i u).trans (hcount i u)⟩
          rw [hdrop p' t']
          omega

end Pop

section Reschedule

variable {popped : Option ThreadId} {s : Scheduler}

theorem Consistent.setQueue (h : Consistent none s) {core : Nat} {q : ThreadQueueList ThreadId}
    (hlinks : SameLinks (s.managers core).readyQueue q)
    (hcount : ∀ p t, q.count p t =
      if s.status t = .ready ∧ s.coreId t = core ∧ s.currentPriority t = p ∧ popped ≠ some t then 1 else 0)
    (hpopped : ∀ t, popped = some t → s.coreId t = core) : Consistent popped (s.modifyQueue core fun _ => q) where
  count := by
    intro c p t
    rw [readyQueue_modifyQueue]
    by_cases hc : c = core
    · rw [if_pos hc, hc]
      exact hcount p t
    · rw [if_neg hc, h.count]
      by_cases hpop : popped = some t
      · have hcore := hpopped t hpop
        have hne : s.coreId t ≠ c := by
          rw [hcore]
          exact Ne.symm hc
        rw [if_neg (fun hx => hne hx.2.1), if_neg (fun hx => hne hx.2.1)]
      · simp only [ne_eq, hpop, reduceCtorEq]
        rfl
  running := by
    intro t hrun
    rw [(manager_modifyQueue _).1]
    exact h.running t hrun
  current := by
    intro c t hcur
    rw [(manager_modifyQueue _).1] at hcur
    exact h.current c t hcur
  created := h.created
  priority := h.priority
  nominal := h.nominal
  wf := by
    intro c
    rw [readyQueue_modifyQueue]
    split
    · exact (h.wf core).congr hlinks.1 hlinks.2
    · exact h.wf c
  linked := by
    intro t hlt
    rw [readyQueue_modifyQueue]
    have hl := h.linked t hlt
    split
    · rename_i hc
      have hc' : s.coreId t = core := hc
      rw [hc'] at hl
      unfold ThreadQueueList.Linked at hl ⊢
      rw [hlinks.2]
      exact hl
    · exact hl
  warnings := by
    intro c
    rw [(manager_modifyQueue _).2.2]
    exact h.warnings c

theorem Consistent.popLaw (h : Consistent none s) (core : Nat) :
    PopLaw (s.popFor core) (s.managers core).readyQueue := by
  unfold popFor
  cases hk : s.keepsRunning core with
  | none => exact popLaw_popFirst (h.wf core)
  | some t =>
    obtain ⟨hcur, -⟩ := Option.filter_eq_some_iff.mp hk
    obtain ⟨hcore, hlt⟩ := h.current core t hcur
    have hl := h.linked t hlt
    rw [hcore] at hl
    exact popLaw_popFirstBetter (h.wf core) hl

theorem Consistent.selectThread (h : Consistent none s) (core : Nat) :
    ∃ next q, s.selectThread core = .ok (next, s.modifyQueue core fun _ => q) ∧
      (next = s.keepsRunning core ∧ Consistent none (s.modifyQueue core fun _ => q) ∧
          q.size numQueues = (s.managers core).readyQueue.size numQueues ∨
        ∃ t, next = some t ∧ s.status t = .ready ∧ s.coreId t = core ∧
          Consistent (some t) (s.modifyQueue core fun _ => q) ∧
          (s.managers core).readyQueue.size numQueues = q.size numQueues + 1) := by
  have hlow : ∀ i u, 0 < (s.managers core).readyQueue.count i u → i < numQueues := by
    intro i u hpos
    rw [h.count] at hpos
    split at hpos
    · rename_i hc
      rw [← hc.2.2.1]
      exact h.priority u
    · exact absurd hpos (Nat.lt_irrefl 0)
  obtain ⟨next, q', skipped, hrun, hlinks, hres⟩ := popSchedulable_ok (s := s) (h.popLaw core)
    ((s.managers core).readyQueue.size numQueues + 1) (s.managers core).readyQueue [] ⟨rfl, rfl⟩ hlow
    (Nat.lt_succ_self _)
  have hsame : SameLinks (s.managers core).readyQueue (pushSkipped q' skipped) := by
    obtain ⟨hfirst, hnext⟩ := sameLinks_pushSkipped q' skipped
    exact ⟨hfirst.trans hlinks.1, hnext.trans hlinks.2⟩
  refine ⟨next.or (s.keepsRunning core), pushSkipped q' skipped, ?_, ?_⟩
  · unfold Scheduler.selectThread
    dsimp only
    rw [hrun, ok_bind]
    rfl
  rcases hres with ⟨hnext, hcount⟩ | ⟨p, t, hnext, hpos, hcount⟩
  · have hq : ∀ i u, (pushSkipped q' skipped).count i u = (s.managers core).readyQueue.count i u := by
      intro i u
      rw [count_pushSkipped, ← hcount i u]
      rfl
    left
    refine ⟨by rw [hnext]; rfl, ?_, ThreadQueueList.size_eq_of_count hq⟩
    apply h.setQueue hsame
    · intro i u
      rw [hq, h.count]
    · intro u hu
      cases hu
  · have hq : ∀ i u, (s.managers core).readyQueue.count i u =
        (pushSkipped q' skipped).count i u + if i = p ∧ u = t then 1 else 0 := by
      intro i u
      rw [count_pushSkipped, ← hcount i u]
      rfl
    right
    have hready : s.status t = .ready ∧ s.coreId t = core ∧ s.currentPriority t = p := by
      rw [h.count] at hpos
      split at hpos
      · rename_i hc
        exact ⟨hc.1, hc.2.1, hc.2.2.1⟩
      · exact absurd hpos (Nat.lt_irrefl 0)
    obtain ⟨hst, hcore, hprio⟩ := hready
    refine ⟨t, by rw [hnext]; rfl, hst, hcore, ?_, ThreadQueueList.size_eq_succ_of_count (hlow p t hpos) hq⟩
    apply h.setQueue hsame
    · intro i u
      have hiu := hq i u
      rw [h.count] at hiu
      by_cases hu : u = t
      · rw [hu, hst, hcore, hprio] at hiu
        rw [hu, if_neg (fun hc => hc.2.2.2 rfl)]
        by_cases hi : i = p
        · rw [if_pos ⟨rfl, rfl, hi.symm, (Option.some_ne_none t).symm⟩, if_pos ⟨hi, rfl⟩] at hiu
          omega
        · rw [if_neg (fun hc => hi hc.2.2.1.symm)] at hiu
          omega
      · rw [if_neg (fun hc : i = p ∧ u = t => hu hc.2), Nat.add_zero] at hiu
        rw [← hiu]
        simp [Ne.symm hu]
    · intro u hu
      rw [Option.some_inj] at hu
      rw [← hu]
      exact hcore

/-- How many more rounds `PopNextReadyThread` can take. -/
def rounds (s : Scheduler) (core : Nat) : Nat :=
  (s.managers core).readyQueue.size numQueues + (if (s.keepsRunning core).isSome then 1 else 0)

/-- The thread that is selected is ready and was taken from the queue, or it runs already. -/
def Picked (core : Nat) (next : Option ThreadId) (s : Scheduler) : Prop :=
  next = none ∧ Consistent none s ∨
    ∃ t, next = some t ∧ s.coreId t = core ∧
      (Consistent none s ∧ s.status t = .running ∨ Consistent (some t) s ∧ s.status t = .ready)

theorem keepsRunning_eq_some {core : Nat} {t : ThreadId} :
    s.keepsRunning core = some t ↔
      (s.managers core).currentThread = some t ∧ s.status t = .running ∧ s.canSchedule t = true := by
  unfold keepsRunning
  rw [Option.filter_eq_some_iff]
  simp

theorem Consistent.putToSleep (h : Consistent popped s) {t : ThreadId}
    (ht : popped = none ∧ s.status t = .running ∨ popped = some t ∧ s.status t = .ready) :
    Consistent none (s.putToSleep t) := by
  have hlt : t < s.nextObjectId := by
    apply h.created t
    rcases ht with ⟨-, hst⟩ | ⟨-, hst⟩
    · rw [hst]
      decide
    · rw [hst]
      decide
  have hs : Consistent none (s.setStatus t .waitSleep) := by
    refine h.setStatus ?_ (by decide) (by decide) (fun _ => hlt) ?_
    · rcases ht with ⟨-, hst⟩ | ⟨hpop, -⟩
      · left
        rw [hst]
        decide
      · exact Or.inr hpop
    · intro u hu
      rcases ht with ⟨hpop, -⟩ | ⟨hpop, -⟩
      · rw [hpop]
      · rw [hpop, Option.some_inj]
        exact iff_of_false (Option.some_ne_none u).symm (Ne.symm hu)
  exact hs.of_eq rfl rfl rfl rfl rfl rfl

theorem sameLife_putToSleep {t : ThreadId} (ht : s.status t = .running ∨ s.status t = .ready) :
    SameLife s (s.putToSleep t) := by
  have hset : SameLife s (s.setStatus t .waitSleep) := by
    apply sameLife_setStatus ?_ (by decide)
    rcases ht with hst | hst
    · rw [hst]
      decide
    · rw [hst]
      decide
  exact hset.trans ⟨fun _ => Iff.rfl, rfl, rfl, rfl, fun _ => rfl⟩

private theorem isSome_keepsRunning_putToSleep {core : Nat} {t : ThreadId} {q : ThreadQueueList ThreadId}
    (h : ((((s.modifyQueue core fun _ => q).putToSleep t).keepsRunning core)).isSome = true) :
    ∃ u, u ≠ t ∧ s.keepsRunning core = some u := by
  obtain ⟨u, hu⟩ := Option.isSome_iff_exists.mp h
  obtain ⟨hcur, hrun, hcan⟩ := keepsRunning_eq_some.1 hu
  have hcur' : (s.managers core).currentThread = some u := by
    have heq : ((s.modifyQueue core fun _ => q).managers core).currentThread = (s.managers core).currentThread :=
      (manager_modifyQueue _).1
    exact heq.symm.trans hcur
  have hrun' : (s.setStatus t .waitSleep).status u = .running := hrun
  rw [status_setStatus] at hrun'
  split at hrun'
  · cases hrun'
  · rename_i hne
    exact ⟨u, hne, keepsRunning_eq_some.2 ⟨hcur', hrun', hcan⟩⟩

theorem Consistent.popNextReadyThread (core n : Nat) :
    ∀ s, Consistent none s → s.rounds core < n →
      ∃ next s', popNextReadyThread core n s = .ok (next, s') ∧ Picked core next s' ∧ SameLife s s' := by
  induction n with
  | zero =>
    intro s _ hr
    exact absurd hr (Nat.not_lt_zero _)
  | succ n ih =>
    intro s h hr
    obtain ⟨next, q, hsel, hcases⟩ := h.selectThread core
    unfold Scheduler.popNextReadyThread
    rw [hsel, ok_bind]
    dsimp only
    -- what is known about a thread that was selected
    have hnext : ∀ t, next = some t → s.coreId t = core ∧
        ∃ o, Consistent o (s.modifyQueue core fun _ => q) ∧
          (o = none ∧ s.status t = .running ∨ o = some t ∧ s.status t = .ready) ∧
          ((s.modifyQueue core fun _ => q).putToSleep t).rounds core < n := by
      intro t ht
      have hsize : ((s.modifyQueue core fun _ => q).putToSleep t).rounds core =
          q.size numQueues +
            (if (((s.modifyQueue core fun _ => q).putToSleep t).keepsRunning core).isSome then 1 else 0) := by
        have hqueue : ((s.modifyQueue core fun _ => q).managers core).readyQueue = q := by
          rw [readyQueue_modifyQueue, if_pos rfl]
        exact congrArg (fun r : ThreadQueueList ThreadId => r.size numQueues + _) hqueue
      rw [hsize]
      unfold rounds at hr
      rcases hcases with ⟨hkeep, hc, hq⟩ | ⟨t', ht', hready, hcore, hc, hq⟩
      · have hkept := hkeep.symm.trans ht
        obtain ⟨hcur, hrun, -⟩ := keepsRunning_eq_some.1 hkept
        refine ⟨(h.current core t hcur).1, none, hc, Or.inl ⟨rfl, hrun⟩, ?_⟩
        rw [hkept] at hr
        split
        · rename_i hsome
          obtain ⟨u, hne, hu⟩ := isSome_keepsRunning_putToSleep hsome
          rw [hkept, Option.some_inj] at hu
          exact absurd hu.symm hne
        · simp only [Option.isSome_some, if_true] at hr
          omega
      · rw [ht, Option.some_inj] at ht'
        subst ht'
        refine ⟨hcore, some t, hc, Or.inr ⟨rfl, hready⟩, ?_⟩
        split
        · rename_i hsome
          obtain ⟨u, -, hu⟩ := isSome_keepsRunning_putToSleep hsome
          rw [hu] at hr
          simp only [Option.isSome_some, if_true] at hr
          omega
        · omega
    have hqueue : SameLife s (s.modifyQueue core fun _ => q) := sameLife_modifyQueue _ _
    cases hn : next with
    | none =>
      refine ⟨none, _, rfl, Or.inl ⟨rfl, ?_⟩, hqueue⟩
      rcases hcases with ⟨-, hc, -⟩ | ⟨t, ht, -⟩
      · exact hc
      · rw [hn] at ht
        cases ht
    | some t =>
      obtain ⟨hcore, o, hc, ho, hrounds⟩ := hnext t hn
      dsimp only
      split
      · obtain ⟨next', s', hpop, hpicked, hlife⟩ := ih _ (hc.putToSleep ho) hrounds
        have hsleep := hqueue.trans (sameLife_putToSleep (ho.imp And.right And.right))
        exact ⟨next', s', hpop, hpicked, hsleep.trans hlife⟩
      · refine ⟨some t, _, rfl, Or.inr ⟨t, rfl, hcore, ?_⟩, hqueue⟩
        rcases ho with ⟨rfl, hst⟩ | ⟨rfl, hst⟩
        · exact Or.inl ⟨hc, hst⟩
        · exact Or.inr ⟨hc, hst⟩

/-- What `SwitchContext` does to the thread that was running. -/
structure Left (core : Nat) (s s' : Scheduler) : Prop where
  coreId : s'.coreId = s.coreId
  nextObjectId : s'.nextObjectId = s.nextObjectId
  status : ∀ t, s'.status t = if s.status t = .running ∧ s.coreId t = core then .ready else s.status t

theorem Consistent.leaveThread (h : Consistent popped s) (core : Nat)
    (hpopped : ∀ t, popped = some t → s.status t = .ready) :
    Consistent popped (s.leaveThread core) ∧ Left core s (s.leaveThread core) := by
  unfold Scheduler.leaveThread
  -- without a running current thread there is no running thread on the core
  have hidle : (∀ t, (s.managers core).currentThread = some t → s.status t ≠ .running) →
      ∀ t, s.status t = if s.status t = .running ∧ s.coreId t = core then .ready else s.status t := by
    intro hcur t
    rw [if_neg]
    rintro ⟨hrun, hcore⟩
    have hc := h.running t hrun
    rw [hcore] at hc
    exact hcur t hc hrun
  split
  · rename_i hc
    refine ⟨h, rfl, rfl, hidle ?_⟩
    intro t ht
    rw [hc] at ht
    cases ht
  · rename_i t hc
    split
    · rename_i hrun
      obtain ⟨hcore, hlt⟩ := h.current core t hc
      constructor
      · have hrel : Consistent popped (s.relocate t (fun q => q.pushFront (s.currentPriority t) t) .ready
            (s.currentPriority t)) := by
          have hne : popped ≠ some t := by
            intro hpop
            have hst := hpopped t hpop
            rw [hrun] at hst
            cases hst
          refine h.relocate (Moves.pushFront _ _) (fun _ _ => Iff.rfl) ?_ ?_ (fun _ => hlt) (h.priority t)
            (h.linked t)
          · intro p
            rw [ThreadQueueList.count_pushFront, h.count_eq_zero (by rw [hrun]; decide)]
            simp [hne, eq_comm]
          · intro hr
            cases hr
        refine hrel.of_eq rfl ?_ rfl rfl ?_ rfl
        · exact (update_eq_self ..).symm
        · unfold Scheduler.relocate
          rw [hcore]
          rfl
      · refine ⟨rfl, rfl, ?_⟩
        intro u
        show (update s.status t .ready) u = _
        rw [update_apply]
        by_cases hu : u = t
        · rw [if_pos hu, hu, if_pos ⟨hrun, hcore⟩]
        · rw [if_neg hu, if_neg]
          rintro ⟨hrun', hcore'⟩
          have hc' := h.running u hrun'
          rw [hcore', hc, Option.some_inj] at hc'
          exact hu hc'.symm
    · rename_i hrun
      refine ⟨h, rfl, rfl, hidle ?_⟩
      intro u hu
      rw [hc, Option.some_inj] at hu
      rw [← hu]
      exact hrun

theorem Consistent.enterThread (h : Consistent popped s) {core : Nat} {t : ThreadId}
    (hidle : ∀ u, s.status u = .running → s.coreId u ≠ core) (hready : s.status t = .ready) (hcore : s.coreId t = core)
    (hpopped : popped = none ∨ popped = some t) : Consistent none (s.enterThread core t) := by
  have hlt : t < s.nextObjectId := h.created t (by rw [hready]; decide)
  have hpop : ∀ u, u ≠ t → popped ≠ some u := by
    intro u hu
    rcases hpopped with hpop | hpop
    · rw [hpop]
      exact (Option.some_ne_none u).symm
    · rw [hpop, ne_eq, Option.some_inj]
      exact Ne.symm hu
  obtain ⟨s', hs'⟩ : ∃ s', s' = s.enterThread core t := ⟨_, rfl⟩
  have hst : ∀ u, s'.status u = if u = t then .running else s.status u := by
    intro u
    rw [hs']
    unfold Scheduler.enterThread
    rw [if_neg (fun hc => hc.2 hready)]
    exact update_apply ..
  have hm : ∀ c, s'.managers c = if c = core then { s.managers core with
      currentThread := some t, readyQueue := (s.managers core).readyQueue.remove (s.currentPriority t) t }
      else s.managers c := by
    intro c
    rw [hs']
    unfold Scheduler.enterThread
    rw [if_neg (fun hc => hc.2 hready)]
    have heq : (s.modifyManager core fun m => { m with
        currentThread := some t, readyQueue := m.readyQueue.remove (s.currentPriority t) t }).managers c = _ :=
      managers_modifyManager _
    exact heq
  have hsame : s'.coreId = s.coreId ∧ s'.currentPriority = s.currentPriority ∧
      s'.nominalPriority = s.nominalPriority ∧ s'.nextObjectId = s.nextObjectId := by
    rw [hs']
    unfold Scheduler.enterThread
    rw [if_neg (fun hc => hc.2 hready)]
    exact ⟨rfl, rfl, rfl, rfl⟩
  obtain ⟨hcoreId, hprio, hnominal, hnext⟩ := hsame
  rw [← hs']
  constructor
  case count =>
    intro c p u
    rw [hm, hst, hcoreId, hprio]
    by_cases hc : c = core
    · rw [if_pos hc]
      dsimp only
      rw [ThreadQueueList.count_remove, h.count, hc]
      by_cases hu : u = t
      · rw [if_pos hu, hu, if_neg (fun hx : ThreadStatus.running = .ready ∧ _ => by cases hx.1)]
        by_cases hp : p = s.currentPriority t
        · rw [if_pos ⟨hp, rfl⟩]
        · rw [if_neg (fun hx => hp hx.1), if_neg (fun hx => hp hx.2.2.1.symm)]
      · rw [if_neg hu, if_neg (fun hx : p = _ ∧ u = t => hu hx.2)]
        simp [hpop u hu]
    · rw [if_neg hc, h.count]
      by_cases hu : u = t
      · rw [if_pos hu, hu, if_neg (fun hx => hc (hx.2.1.symm.trans hcore)),
          if_neg (fun hx : ThreadStatus.running = .ready ∧ _ => by cases hx.1)]
      · rw [if_neg hu]
        simp [hpop u hu]
  case running =>
    intro u hrun
    rw [hst] at hrun
    rw [hcoreId, hm]
    split at hrun
    · rename_i hu
      rw [hu, hcore, if_pos rfl]
    · rw [if_neg (hidle u hrun)]
      exact h.running u hrun
  case current =>
    intro c u hcur
    rw [hm] at hcur
    rw [hcoreId, hnext]
    split at hcur
    · rename_i hc
      rw [Option.some_inj] at hcur
      rw [← hcur, hc]
      exact ⟨hcore, hlt⟩
    · exact h.current c u hcur
  case created =>
    intro u hd
    rw [hst] at hd
    rw [hnext]
    split at hd
    · rename_i hu
      rw [hu]
      exact hlt
    · exact h.created u hd
  case priority =>
    rw [hprio]
    exact h.priority
  case nominal =>
    rw [hnominal]
    exact h.nominal
  case wf =>
    intro c
    rw [hm]
    split
    · exact (h.wf core).remove _ _
    · exact h.wf c
  case linked =>
    intro u hu
    rw [hnext] at hu
    rw [hcoreId, hprio, hm]
    have hl := h.linked u hu
    split
    · rename_i hc
      rw [hc] at hl
      exact hl
    · exact hl
  case warnings =>
    intro c
    rw [hm]
    split
    · exact h.warnings core
    · exact h.warnings c

private theorem Consistent.clearCurrent (h : Consistent none s) {core : Nat}
    (hidle : ∀ u, s.status u = .running → s.coreId u ≠ core) :
    Consistent none (s.modifyManager core fun m => { m with currentThread := none }) := by
  have hm : ∀ c, (s.modifyManager core fun m => { m with currentThread := none }).managers c =
      if c = core then { s.managers core with currentThread := none } else s.managers c := fun c =>
    managers_modifyManager _
  have hqueue : ∀ c, ((s.modifyManager core fun m => { m with currentThread := none }).managers c).readyQueue =
      (s.managers c).readyQueue := by
    intro c
    rw [hm]
    split
    · rename_i hc
      rw [hc]
    · rfl
  constructor
  case count =>
    intro c p t
    rw [hqueue]
    exact h.count c p t
  case running =>
    intro t hrun
    have hne : s.coreId t ≠ core := hidle t hrun
    have heq := (hm (s.coreId t)).trans (if_neg hne)
    exact (congrArg ThreadManager.currentThread heq).trans (h.running t hrun)
  case current =>
    intro c t hcur
    rw [hm] at hcur
    split at hcur
    · cases hcur
    · exact h.current c t hcur
  case created => exact h.created
  case priority => exact h.priority
  case nominal => exact h.nominal
  case wf =>
    intro c
    rw [hqueue]
    exact h.wf c
  case linked =>
    intro t hlt
    rw [hqueue]
    exact h.linked t hlt
  case warnings =>
    intro c
    rw [hm]
    split
    · exact h.warnings core
    · exact h.warnings c

theorem Picked.switchContext {core : Nat} {next : Option ThreadId} (h : Picked core next s) :
    Consistent none (s.switchContext core next) := by
  unfold Scheduler.switchContext
  -- after the running thread has been left, no thread of the core runs
  have hidle : ∀ {s' : Scheduler}, Left core s s' → ∀ u, s'.status u = .running → s'.coreId u ≠ core := by
    intro s' hl u hrun
    rw [hl.status] at hrun
    rw [hl.coreId]
    split at hrun
    · cases hrun
    · rename_i hnot
      exact fun hcore => hnot ⟨hrun, hcore⟩
  rcases h with ⟨rfl, hc⟩ | ⟨t, rfl, hcore, ⟨hc, hrun⟩ | ⟨hc, hready⟩⟩
  · obtain ⟨hleft, hl⟩ := hc.leaveThread core (fun _ ht => by cases ht)
    exact hleft.clearCurrent (hidle hl)
  · obtain ⟨hleft, hl⟩ := hc.leaveThread core (fun _ ht => by cases ht)
    refine hleft.enterThread (hidle hl) ?_ ?_ (Or.inl rfl)
    · rw [hl.status, if_pos ⟨hrun, hcore⟩]
    · rw [hl.coreId]
      exact hcore
  · obtain ⟨hleft, hl⟩ := hc.leaveThread core (fun u hu => by rw [← Option.some_inj.mp hu]; exact hready)
    refine hleft.enterThread (hidle hl) ?_ ?_ (Or.inr rfl)
    · rw [hl.status, hready]
      simp
    · rw [hl.coreId]
      exact hcore

theorem sameLife_leaveThread (core : Nat) : SameLife s (s.leaveThread core) := by
  unfold Scheduler.leaveThread
  split
  · exact SameLife.refl s
  · split
    · rename_i hrun
      refine (sameLife_modifyQueue _ _).trans (sameLife_setStatus ?_ (by decide))
      show s.status _ ≠ .dead
      rw [hrun]
      decide
    · exact SameLife.refl s

theorem sameLife_switchContext (core : Nat) (next : Option ThreadId) : SameLife s (s.switchContext core next) := by
  have hmanager : ∀ (s : Scheduler) (f : ThreadManager → ThreadManager), (∀ m, (f m).threadList = m.threadList) →
      SameLife s (s.modifyManager core f) := by
    intro s f hf
    refine ⟨fun _ => Iff.rfl, rfl, rfl, rfl, ?_⟩
    intro c
    rw [managers_modifyManager]
    split
    · rename_i hc
      rw [hf, hc]
    · rfl
  unfold Scheduler.switchContext
  have hleft : SameLife s (s.leaveThread core) := sameLife_leaveThread core
  cases next with
  | none => exact hleft.trans (hmanager _ _ fun _ => rfl)
  | some t =>
    apply hleft.trans
    dsimp only
    generalize s.leaveThread core = s₁
    unfold Scheduler.enterThread
    split
    · exact hmanager _ _ fun _ => rfl
    · rename_i hst
      have hwake : SameLife s₁ (s₁.unscheduleWakeup t) := ⟨fun _ => Iff.rfl, rfl, rfl, rfl, fun _ => rfl⟩
      have hrunning : ThreadStatus.running ≠ .dead := by decide
      have henter := hmanager (s₁.unscheduleWakeup t) (fun m =>
        { m with currentThread := some t, readyQueue := m.readyQueue.remove (s₁.currentPriority t) t }) fun _ => rfl
      refine hwake.trans (henter.trans (sameLife_setStatus ?_ hrunning))
      show s₁.status t ≠ .dead
      intro hdead
      rw [hdead] at hst
      exact hst ⟨by decide, by decide⟩

theorem Consistent.reschedule (h : Consistent none s) (core : Nat) :
    ∃ s', s.reschedule core = .ok s' ∧ Consistent none s' ∧ SameLife s s' := by
  have hrounds : s.rounds core < (s.managers core).readyQueue.size numQueues + 2 := by
    unfold rounds
    split <;> omega
  obtain ⟨next, s', hpop, hpicked, hlife⟩ := Consistent.popNextReadyThread core _ s h hrounds
  unfold Scheduler.reschedule
  dsimp only
  rw [hpop, ok_bind]
  dsimp only
  split
  · rename_i hnone
    refine ⟨s', rfl, ?_, hlife⟩
    rcases hpicked with ⟨-, hc⟩ | ⟨t, ht, -⟩
    · exact hc
    · rw [ht] at hnone
      exact absurd hnone.2 (by simp)
  · exact ⟨_, rfl, hpicked.switchContext, hlife.trans (sameLife_switchContext core next)⟩

end Reschedule

def waitStatuses : List ThreadStatus :=
  [.waitArb, .waitSleep, .waitIPC, .waitSynchAny, .waitSynchAll, .waitHleEvent]

inductive Op where
  | createThread (priority core process : Nat) (category : ResourceLimitCategory) (ready : Bool)
  /-- The main thread of a process that starts later. -/
  | sleepNewThread (t : ThreadId)
  | resumeFromWait (t : ThreadId)
  | setThreadPriority (t : ThreadId) (priority : Nat)
  | boostPriority (t : ThreadId) (priority : Nat)
  | updatePriority (t : ThreadId) (mutexPriorities : List Nat)
  | stop (t : ThreadId) (effects : List Effect)
  | exitCurrentThread (core : Nat) (effects : ThreadId → List Effect)
  | terminateProcessThreads (core process : Nat) (effects : ThreadId → List Effect)
  | waitCurrentThread (core : Nat) (status : ThreadStatus)
  | wakeAfterDelay (t : ThreadId) (nanoseconds : Int)
  | setUnscheduleMode (t : ThreadId) (mode : UnscheduleMode) (value : Bool)
  | setScheduleMode (mode : Core1ScheduleMode)
  | setLimiter (ready active : Bool) (appCpuTime : Int) (state : SchedState)
  | wakeupSleepingThreads
  | reschedule (core : Nat)

/-- `SetUnscheduleMode` and `ClearUnscheduleMode`. -/
def setUnscheduleMode (s : Scheduler) (t : ThreadId) (mode : UnscheduleMode) (value : Bool) : Scheduler :=
  { s with unscheduleMode := Function.update s.unscheduleMode t (Function.update (s.unscheduleMode t) mode value) }

/-- The changes of the limiter other than those of its queue. -/
def setLimiter (s : Scheduler) (ready active : Bool) (appCpuTime : Int) (state : SchedState) : Scheduler :=
  s.modifyLimiter fun l => { l with ready := ready, active := active, appCpuTime := appCpuTime, currState := state }

def exec (s : Scheduler) : Op → Except KernelFault Scheduler
  | .createThread priority core process category ready =>
    if priority ≤ threadPrioLowest then .ok (s.createThread s.nextObjectId priority core process category ready)
    else .ok s
  | .sleepNewThread t => if s.status t = .dormant then .ok (s.setStatus t .waitSleep) else .ok s
  | .resumeFromWait t => .ok (s.resumeFromWait t)
  | .setThreadPriority t priority => if priority ≤ threadPrioLowest then s.setPriority t priority else .ok s
  | .boostPriority t priority => .ok (s.boostPriority t priority)
  | .updatePriority t mutexPriorities => .ok (s.updatePriority t mutexPriorities)
  | .stop t effects => .ok (s.stop t effects)
  | .exitCurrentThread core effects => s.exitCurrentThread core effects
  | .terminateProcessThreads core process effects => s.terminateProcessThreads core process effects
  | .waitCurrentThread core status => .ok (s.waitCurrentThread core status)
  | .wakeAfterDelay t nanoseconds => .ok (s.wakeAfterDelay t nanoseconds)
  | .setUnscheduleMode t mode value => .ok (s.setUnscheduleMode t mode value)
  | .setScheduleMode mode => .ok { s with currentScheduleMode := mode }
  | .setLimiter ready active appCpuTime state => .ok (s.setLimiter ready active appCpuTime state)
  | .wakeupSleepingThreads => .ok s.wakeupSleepingThreads
  | .reschedule core => s.reschedule core

/-- What the callers of an operation guarantee: a thread calls `ExitThread` and the waits itself, and the priority of a
boost is one. -/
def Permitted (s : Scheduler) : Op → Prop
  | .boostPriority _ priority => priority ≤ threadPrioLowest
  | .exitCurrentThread core _ => (s.managers core).currentThread ≠ none
  | .waitCurrentThread _ status => status ∈ waitStatuses
  | _ => True

def PermittedRun : Scheduler → List Op → Prop
  | _, [] => True
  | s, op :: ops => Permitted s op ∧ ∀ s', s.exec op = .ok s' → PermittedRun s' ops

/-- The operations one after the other, from a state without threads. -/
def run (ops : List Op) : Except KernelFault Scheduler := ops.foldlM exec {}

structure QueuesOk (s : Scheduler) : Prop where
  ready : ∀ t c p, s.status t = .ready → (s.managers c).readyQueue.count p t =
    if c = s.coreId t ∧ p = s.currentPriority t then 1 else 0
  notReady : ∀ t c p, s.status t ≠ .ready → (s.managers c).readyQueue.count p t = 0
  running : ∀ t, s.status t = .running → (s.managers (s.coreId t)).currentThread = some t
  warnings : ∀ c, (s.managers c).warnings = 0

theorem Consistent.queuesOk {s : Scheduler} (h : Consistent none s) : QueuesOk s where
  ready := by
    intro t c p hready
    rw [h.count]
    simp [hready, eq_comm]
  notReady := by
    intro t c p hready
    rw [h.count, if_neg (fun hc => hready hc.1)]
  running := h.running
  warnings := h.warnings

theorem consistent_empty : Consistent none ({} : Scheduler) where
  count := by
    intro c p t
    exact (if_neg (fun hc => by cases hc.1)).symm
  running := fun t hrun => by cases hrun
  current := fun c t hcur => by cases hcur
  created := fun t hd => (hd rfl).elim
  priority := fun _ => Nat.succ_pos threadPrioLowest
  nominal := fun _ => Nat.succ_pos threadPrioLowest
  wf := fun c => ThreadQueueList.WF.empty
  linked := fun t hlt => absurd hlt (Nat.not_lt_zero t)
  warnings := fun c => rfl

theorem Consistent.exec {s : Scheduler} (h : Consistent none s) {op : Op} (hop : Permitted s op) :
    ∃ s', s.exec op = .ok s' ∧ Consistent none s' := by
  cases op with
  | createThread priority core process category ready =>
    unfold Scheduler.exec
    dsimp only
    split
    · rename_i hp
      exact ⟨_, rfl, h.createThread rfl hp core process category ready⟩
    · exact ⟨s, rfl, h⟩
  | sleepNewThread t =>
    unfold Scheduler.exec
    dsimp only
    split
    · rename_i hst
      refine ⟨_, rfl, h.setStatus (Or.inl ?_) (by decide) (by decide) (fun _ => h.created t ?_) fun _ _ => Iff.rfl⟩
      · rw [hst]
        decide
      · rw [hst]
        decide
    · exact ⟨s, rfl, h⟩
  | resumeFromWait t => exact ⟨_, rfl, h.resumeFromWait t⟩
  | setThreadPriority t priority =>
    unfold Scheduler.exec
    dsimp only
    split
    · rename_i hp
      exact h.setPriority t hp
    · exact ⟨s, rfl, h⟩
  | boostPriority t priority => exact ⟨_, rfl, h.boostPriority t (Nat.lt_succ_of_le hop)⟩
  | updatePriority t mutexPriorities => exact ⟨_, rfl, h.updatePriority t mutexPriorities⟩
  | stop t effects => exact ⟨_, rfl, h.stop t effects⟩
  | exitCurrentThread core effects => exact h.exitCurrentThread hop effects
  | terminateProcessThreads core process effects => exact h.terminateProcessThreads core process effects
  | waitCurrentThread core status =>
    have hwait : status ∈ waitStatuses := hop
    refine ⟨_, rfl, h.waitCurrentThread core ?_ ?_⟩
    · rintro rfl
      exact absurd hwait (by decide)
    · rintro rfl
      exact absurd hwait (by decide)
  | wakeAfterDelay t nanoseconds =>
    refine ⟨_, rfl, ?_⟩
    unfold Scheduler.wakeAfterDelay
    split
    · exact h
    · exact h.of_eq rfl rfl rfl rfl rfl rfl
  | setUnscheduleMode t mode value => exact ⟨_, rfl, h.of_eq rfl rfl rfl rfl rfl rfl⟩
  | setScheduleMode mode => exact ⟨_, rfl, h.of_eq rfl rfl rfl rfl rfl rfl⟩
  | setLimiter ready active appCpuTime state => exact ⟨_, rfl, h.of_eq rfl rfl rfl rfl rfl rfl⟩
  | wakeupSleepingThreads => exact ⟨_, rfl, h.wakeupSleepingThreads⟩
  | reschedule core =>
    obtain ⟨s', hs', hc, -⟩ := h.reschedule core
    exact ⟨s', hs', hc⟩

theorem Consistent.foldlM {s : Scheduler} (h : Consistent none s) {ops : List Op} (hops : PermittedRun s ops) :
    ∃ s', ops.foldlM Scheduler.exec s = .ok s' ∧ Consistent none s' := by
  induction ops generalizing s with
  | nil => exact ⟨s, rfl, h⟩
  | cons op ops ih =>
    obtain ⟨hop, hrest⟩ := hops
    obtain ⟨s₁, hs₁, h₁⟩ := h.exec hop
    obtain ⟨s₂, hs₂, h₂⟩ := ih h₁ (hrest s₁ hs₁)
    refine ⟨s₂, ?_, h₂⟩
    rw [List.foldlM_cons, hs₁]
    exact hs₂

/-- In every state that a run reaches a ready thread is once in the queue of its core, no other thread is in a queue,
and a running thread is the current one.  No thread has to be put back during scheduling. -/
theorem run_queuesOk (ops : List Op) (hops : PermittedRun {} ops) : ∃ s, run ops = .ok s ∧ QueuesOk s := by
  obtain ⟨s, hrun, h⟩ := consistent_empty.foldlM hops
  exact ⟨s, hrun, h.queuesOk⟩

def sampleOps : List Op :=
  [.createThread 0x30 0 1 .application true, .createThread 0x31 0 1 .application true, .reschedule 0,
    .waitCurrentThread 0 .waitSleep, .reschedule 0, .setThreadPriority 0 0x20, .resumeFromWait 0]

theorem sampleOps_queuesOk : PermittedRun {} sampleOps ∧ ∃ s, run sampleOps = .ok s ∧ QueuesOk s := by
  have hops : PermittedRun {} sampleOps := by
    simp [sampleOps, PermittedRun, Permitted, waitStatuses]
  exact ⟨hops, run_queuesOk sampleOps hops⟩

end Scheduler

end SweepDSEmu
