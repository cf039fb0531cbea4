import SweepDSEmu.Kernel.ThreadSelection

/-!
# Sleeping and yielding

`SleepThread` of `svc.cpp`: a negative duration asks for a reschedule only, and whether the thread gives way is decided by
`PopNextReadyThread` and `SwitchContext`.

* A thread that goes on running is taken from the queue only when nothing strictly better is ready, so a thread of the
  same priority is never switched to.
* `sleepThread_yields_iff` says when a negative sleep does yield.
-/

namespace SweepDSEmu.Scheduler

def haveReadyThreads (s : Scheduler) (core : Nat) : Except KernelFault Bool :=
  match (s.managers core).readyQueue.getFirst numQueues with
  | none => .error .badPointer
  | some first => .ok first.isSome

def sleepThread (s : Scheduler) (core : Nat) (nanoseconds : Int) : Except KernelFault (Bool × Scheduler) := do
  let ready ← (if nanoseconds = 0 then s.haveReadyThreads core else .ok true : Except KernelFault Bool)
  if !ready then return (false, s)
  -- negative values are yield sentinels: a plain reschedule
  if nanoseconds < 0 then return (true, s)
  match (s.managers core).currentThread with
  | none => .error .badPointer
  | some t => return (true, (s.setStatus t .waitSleep).wakeAfterDelay t nanoseconds)

/-- `SleepThread` and the reschedule that follows. -/
def sleepAndReschedule (s : Scheduler) (core : Nat) (nanoseconds : Int) : Except KernelFault Scheduler := do
  let (pending, s) ← s.sleepThread core nanoseconds
  if pending then s.reschedule core else return s

structure GaveWay (core : Nat) (t : ThreadId) (s : Scheduler) : Prop where
  other : ∃ u, u ≠ t ∧ (s.managers core).currentThread = some u
  ready : s.status t = .ready
  queued : t ∈ (s.managers core).readyQueue.data (s.currentPriority t)

section Leave

variable {s s' : Scheduler} {core n : Nat} {t : ThreadId} {next : Option ThreadId}

private theorem Round.better_of_keepsRunning (h : Consistent none s) {l : List (Nat × ThreadId)}
    (hround : Round s core next l) (hkeep : s.keepsRunning core = some t) :
    next = some t ∨ ∃ u, next = some u ∧ s.currentPriority u < s.currentPriority t := by
  cases hround with
  | keep hnext hl hbest => exact Or.inl (hnext.trans hkeep)
  | take p u l₁ l₂ hnext hl hl' hskip hcan hbetter =>
    refine Or.inr ⟨u, hnext, ?_⟩
    have hmem : (p, u) ∈ s.entries core := by
      rw [hl]
      exact List.mem_append_right _ List.mem_cons_self
    rw [(h.mem_entries.mp hmem).2.2]
    rw [better, hkeep] at hbetter
    simpa using hbetter

private theorem Consistent.better_of_running (h : Consistent none s)
    (hpop : Scheduler.popNextReadyThread core n s = .ok (next, s')) (hcur : (s.managers core).currentThread = some t)
    (hcan : s.canSchedule t = true) (hrun : s'.status t = .running) :
    next = some t ∨ ∃ u, next = some u ∧ s.currentPriority u < s.currentPriority t := by
  refine Consistent.pop_induction (P := fun s next s' => (s.managers core).currentThread = some t →
    s.canSchedule t = true → s'.status t = .running →
    next = some t ∨ ∃ u, next = some u ∧ s.currentPriority u < s.currentPriority t) ?_ ?_ n s h next s' hpop hcur hcan hrun
  · intro s found q h hround _ hcur hcan hrun
    exact hround.better_of_keepsRunning h (keepsRunning_eq_some.2 ⟨hcur, hrun, hcan⟩)
  · intro s u q next s' h hround hlimit ih hcur hcan hrun
    have hunseen := unseen_of_round hround hlimit
    rw [← hunseen.currentThread] at hcur
    have hres := ih hcur hcan hrun
    exact hres

private theorem Consistent.status_of_pop (h : Consistent none s)
    (hpop : Scheduler.popNextReadyThread core n s = .ok (next, s')) (u : ThreadId) :
    s'.status u = s.status u ∨ s'.status u = .waitSleep := by
  refine Consistent.pop_induction (P := fun s _ s' => s'.status u = s.status u ∨ s'.status u = .waitSleep) ?_ ?_ n s h
    next s' hpop
  · intro s found q _ _ _
    exact Or.inl rfl
  · intro s v q next s' _ _ _ ih
    rcases ih with ih | ih
    · have hst : s'.status u = ((s.modifyQueue core fun _ => q).setStatus v .waitSleep).status u := ih
      rw [status_setStatus] at hst
      split at hst
      · exact Or.inr hst
      · exact Or.inl hst
    · exact Or.inr ih

private theorem Consistent.running_of_pop (h : Consistent none s)
    (hpop : Scheduler.popNextReadyThread core n s = .ok (next, s')) (hrun : s.status t = .running)
    (hgive : s.canSchedule t = false ∨ ∃ u, s.Candidate core u ∧ s.currentPriority u < s.currentPriority t) :
    s'.status t = .running := by
  refine Consistent.pop_induction (P := fun s _ s' => s.status t = .running →
    (s.canSchedule t = false ∨ ∃ u, s.Candidate core u ∧ s.currentPriority u < s.currentPriority t) →
    s'.status t = .running) ?_ ?_ n s h next s' hpop hrun hgive
  · intro s found q _ _ _ hrun _
    exact hrun
  · intro s v q next s' h hround hlimit ih hrun hgive
    have hunseen := unseen_of_round hround hlimit
    -- the thread of this round is another one
    have hne : t ≠ v := by
      rintro rfl
      cases hround with
      | keep hnext hl hbest =>
        have hkeep := hnext.symm
        rcases hgive with hcan | ⟨u, hu, hlt⟩
        · rw [(keepsRunning_eq_some.1 hkeep).2.2] at hcan
          cases hcan
        · obtain ⟨hmem, hcan⟩ := h.candidate_mem hu
          have hb := hbest _ hmem hcan
          rw [better, hkeep] at hb
          simp only [decide_eq_false_iff_not] at hb
          exact hb hlt
      | take p u l₁ l₂ hnext hl hl' hskip hcan hbetter =>
        have hmem : (p, u) ∈ s.entries core := by
          rw [hl]
          exact List.mem_append_right _ List.mem_cons_self
        have hready := (h.mem_entries.mp hmem).1
        rw [← Option.some_inj.mp hnext, hrun] at hready
        cases hready
    apply ih
    · show ((s.modifyQueue core fun _ => q).setStatus v .waitSleep).status t = .running
      rw [status_setStatus, if_neg hne]
      exact hrun
    · refine hgive.imp_right ?_
      rintro ⟨u, hu, hlt⟩
      exact ⟨u, hunseen.candidate.2 hu, hlt⟩

private theorem Picked.switched {u : ThreadId} (h : Picked core (some u) s) :
    ((s.switchContext core (some u)).managers core).currentThread = some u ∧
      ∀ v, v ≠ u → (s.switchContext core (some u)).status v =
        if s.status v = .running ∧ s.coreId v = core then .ready else s.status v := by
  rcases h with ⟨hu, -⟩ | ⟨t, ht, hcore, hpicked⟩
  · cases hu
  obtain rfl : u = t := Option.some_inj.mp ht
  -- after the running thread has been left, the selected one is ready
  have hleft : Left core s (s.leaveThread core) ∧ (s.leaveThread core).status u = .ready := by
    rcases hpicked with ⟨hc, hrun⟩ | ⟨hc, hready⟩
    · obtain ⟨-, hl⟩ := hc.leaveThread core (fun _ ht => by cases ht)
      exact ⟨hl, by rw [hl.status, if_pos ⟨hrun, hcore⟩]⟩
    · obtain ⟨-, hl⟩ := hc.leaveThread core (fun v hv => by rw [← Option.some_inj.mp hv]; exact hready)
      refine ⟨hl, ?_⟩
      rw [hl.status, hready]
      simp
  obtain ⟨hl, hready⟩ := hleft
  unfold Scheduler.switchContext Scheduler.enterThread
  dsimp only
  rw [if_neg (fun hc => hc.2 hready)]
  constructor
  · generalize (s.leaveThread core).unscheduleWakeup u = s₁
    have hm : (s₁.modifyManager core fun m => { m with
        currentThread := some u, readyQueue := m.readyQueue.remove (s₁.currentPriority u) u }).managers core =
        { s₁.managers core with
          currentThread := some u, readyQueue := (s₁.managers core).readyQueue.remove (s₁.currentPriority u) u } :=
      (managers_modifyManager _).trans (if_pos rfl)
    exact congrArg ThreadManager.currentThread hm
  · intro v hv
    rw [status_setStatus, if_neg hv, ← hl.status v]
    rfl

end Leave

section Yield

variable {s : Scheduler} {core : Nat} {t u : ThreadId}

theorem sleepAndReschedule_of_neg {nanoseconds : Int} (hneg : nanoseconds < 0) :
    s.sleepAndReschedule core nanoseconds = s.reschedule core := by
  unfold sleepAndReschedule sleepThread
  rw [if_neg (by omega), ok_bind]
  simp only [Bool.not_true, Bool.false_eq_true, if_false, if_pos hneg]
  rfl

private theorem Consistent.reschedule_candidate (h : Consistent none s) (hu : s.Candidate core u) :
    ∃ n next s₁, Scheduler.popNextReadyThread core n s = .ok (some next, s₁) ∧ Picked core (some next) s₁ ∧
      SameLife s s₁ ∧ s.reschedule core = .ok (s₁.switchContext core (some next)) := by
  have hrounds : s.rounds core < (s.managers core).readyQueue.size numQueues + 2 := by
    unfold rounds
    split <;> omega
  obtain ⟨next, s₁, hpop, hpicked, hlife⟩ := Consistent.popNextReadyThread core _ s h hrounds
  obtain ⟨hsel, -⟩ := h.selects_of_pop hpop
  have hnext : next ≠ none := by
    rintro rfl
    by_cases hcont : ∃ t, s.Continues core t
    · obtain ⟨t, ht⟩ := hcont
      cases hsel.continues t ht
    · exact hsel.none (fun t ht => hcont ⟨t, ht⟩) rfl u hu
  obtain ⟨v, rfl⟩ := Option.ne_none_iff_exists'.mp hnext
  refine ⟨_, v, s₁, hpop, hpicked, hlife, ?_⟩
  unfold Scheduler.reschedule
  rw [hpop, ok_bind]
  dsimp only
  rw [if_neg (fun hc => by cases hc.2)]
  rfl

private theorem Consistent.gaveWay (h : Consistent none s) (hcur : (s.managers core).currentThread = some t)
    (hrun : s.status t = .running) (hu : s.Candidate core u)
    (hgive : s.canSchedule t = false ∨ ∃ v, s.Candidate core v ∧ s.currentPriority v < s.currentPriority t) :
    ∃ s', s.reschedule core = .ok s' ∧ GaveWay core t s' := by
  obtain ⟨n, next, s₁, hpop, hpicked, hlife, hres⟩ := h.reschedule_candidate hu
  obtain ⟨hsel, -⟩ := h.selects_of_pop hpop
  have hno : ∀ v, ¬ s.Continues core v := by
    intro v hv
    have hvt : v = t := Option.some_inj.mp (hv.current.symm.trans hcur)
    subst hvt
    rcases hgive with hcan | ⟨w, hw, hlt⟩
    · rw [(eligible_eq_true.1 hv.eligible).1] at hcan
      cases hcan
    · exact hv.best w hw hlt
  have hready := (hsel.some hno next rfl).candidate.ready
  have hne : t ≠ next := by
    rintro rfl
    rw [hrun] at hready
    cases hready
  have hrun₁ := h.running_of_pop hpop hrun hgive
  have hcore₁ : s₁.coreId t = core := by
    rw [hlife.coreId]
    exact (h.current core t hcur).1
  obtain ⟨hcur', hst'⟩ := hpicked.switched
  have hready' := (hst' t hne).trans (if_pos ⟨hrun₁, hcore₁⟩)
  refine ⟨_, hres, ⟨next, Ne.symm hne, hcur'⟩, hready', ?_⟩
  have hcore' : (s₁.switchContext core (some next)).coreId t = core := by
    rw [(sameLife_switchContext core (some next)).coreId]
    exact hcore₁
  have hcount := hpicked.switchContext.queuesOk.ready t core
    ((s₁.switchContext core (some next)).currentPriority t) hready'
  rw [if_pos ⟨hcore'.symm, rfl⟩] at hcount
  exact List.count_pos_iff.mp (Nat.lt_of_lt_of_eq Nat.one_pos hcount.symm)

/-- The running thread does not give way when it can be scheduled and no candidate is better: it goes on, or the limiter
puts it to sleep. -/
private theorem Consistent.not_gaveWay (h : Consistent none s) (hcur : (s.managers core).currentThread = some t)
    (hrun : s.status t = .running) (hu : s.Candidate core u) (hcan : s.canSchedule t = true)
    (hbest : ∀ v, s.Candidate core v → ¬ s.currentPriority v < s.currentPriority t) {s' : Scheduler}
    (hres' : s.reschedule core = .ok s') : ¬ GaveWay core t s' := by
  intro hgave
  obtain ⟨n, next, s₁, hpop, hpicked, hlife, hres⟩ := h.reschedule_candidate hu
  obtain ⟨hsel, -⟩ := h.selects_of_pop hpop
  obtain ⟨hcur', hst'⟩ := hpicked.switched
  obtain rfl : s₁.switchContext core (some next) = s' := Except.ok.inj (hres.symm.trans hres')
  by_cases hlimit : s.limited core t = true
  · have hno : ∀ v, ¬ s.Continues core v := by
      intro v hv
      have hvt : v = t := Option.some_inj.mp (hv.current.symm.trans hcur)
      rw [hvt] at hv
      rw [(eligible_eq_true.1 hv.eligible).2] at hlimit
      cases hlimit
    have hcand := (hsel.some hno next rfl).candidate
    have hne : t ≠ next := by
      rintro rfl
      have hready := hcand.ready
      rw [hrun] at hready
      cases hready
    -- the limiter has put the thread to sleep
    have hsleep : s₁.status t = .waitSleep := by
      rcases h.status_of_pop hpop t with hst | hst
      · rcases h.better_of_running hpop hcur hcan (hst.trans hrun) with hnext | ⟨v, hv, hlt⟩
        · exact absurd (Option.some_inj.mp hnext).symm hne
        · rw [← Option.some_inj.mp hv] at hlt
          exact absurd hlt (hbest next hcand)
      · exact hst
    have hst := hst' t hne
    rw [hgave.ready, hsleep] at hst
    simp at hst
  · have hcont : s.Continues core t :=
      ⟨hcur, hrun, eligible_eq_true.2 ⟨hcan, Bool.eq_false_iff.mpr hlimit⟩, hbest⟩
    have hnext := hsel.continues t hcont
    obtain ⟨v, hv, hcurv⟩ := hgave.other
    rw [hcur', hnext, Option.some_inj] at hcurv
    exact hv hcurv.symm

/-- When another thread of the core could run, a negative sleep gives way to it if the thread cannot be scheduled any
more or a strictly better one is ready; for one of the same priority it does not. -/
theorem sleepThread_yields_iff (s : Scheduler) (h : Consistent none s) (core : Nat) (nanoseconds : Int)
    (hneg : nanoseconds < 0) (t u : ThreadId) (hcur : (s.managers core).currentThread = some t)
    (hrun : s.status t = .running) (hu : s.Candidate core u) :
    (∃ s', s.sleepAndReschedule core nanoseconds = .ok s' ∧ GaveWay core t s') ↔
      s.canSchedule t = false ∨ ∃ v, s.Candidate core v ∧ s.currentPriority v < s.currentPriority t := by
  rw [sleepAndReschedule_of_neg hneg]
  constructor
  · rintro ⟨s', hres, hgave⟩
    by_contra hnot
    rw [not_or] at hnot
    refine h.not_gaveWay hcur hrun hu (by simpa using hnot.1) ?_ hres hgave
    intro v hv hlt
    exact hnot.2 ⟨v, hv, hlt⟩
  · exact h.gaveWay hcur hrun hu

def pairOps (first second : Nat) : List Op :=
  [.createThread first 0 1 .application true, .reschedule 0, .createThread second 0 1 .application true]

/-- A thread with a better one beside it sleeps for -1 nanoseconds and gives way. -/
theorem pairOps_gaveWay : ∃ s, run (pairOps 0x30 0x20) = .ok s ∧ (s.managers 0).currentThread = some 0 ∧
    s.status 0 = .running ∧ s.Candidate 0 1 ∧ ∃ s', s.sleepAndReschedule 0 (-1) = .ok s' ∧ GaveWay 0 0 s' := by
  have hops : PermittedRun {} (pairOps 0x30 0x20) := by
    simp [pairOps, PermittedRun, Permitted]
  obtain ⟨s, hrun, h⟩ := consistent_empty.foldlM hops
  have hs : run (pairOps 0x30 0x20) = .ok s := hrun
  have hview : (s.managers 0).currentThread = some 0 ∧ s.status 0 = .running ∧ s.Candidate 0 1 ∧
      s.currentPriority 1 < s.currentPriority 0 := by
    obtain rfl := Except.ok.inj hs
    exact ⟨rfl, rfl, ⟨rfl, rfl, rfl⟩, by decide⟩
  obtain ⟨hcur, hrun, hcand, hlt⟩ := hview
  exact ⟨s, hs, hcur, hrun, hcand,
    (sleepThread_yields_iff s h 0 (-1) (by decide) 0 1 hcur hrun hcand).2 (Or.inr ⟨1, hcand, hlt⟩)⟩

/-- A thread with another one of the same priority beside it sleeps for -1 nanoseconds and goes on. -/
theorem pairOps_not_gaveWay : ∃ s, run (pairOps 0x30 0x30) = .ok s ∧ (s.managers 0).currentThread = some 0 ∧
    s.status 0 = .running ∧ s.Candidate 0 1 ∧ s.currentPriority 1 = s.currentPriority 0 ∧
    ∀ s', s.sleepAndReschedule 0 (-1) = .ok s' → ¬ GaveWay 0 0 s' := by
  refine ⟨_, rfl, rfl, rfl, ⟨rfl, rfl, rfl⟩, rfl, ?_⟩
  intro s' hs' hgave
  obtain rfl := Except.ok.inj hs'
  obtain ⟨u, hu, hcur⟩ := hgave.other
  have heq : some 0 = some u := hcur
  exact hu (Option.some_inj.mp heq).symm

end Yield

end SweepDSEmu.Scheduler
