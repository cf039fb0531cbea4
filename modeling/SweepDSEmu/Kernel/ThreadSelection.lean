import SweepDSEmu.Kernel.SchedulerRun

/-!
# Which thread is selected

`PopNextReadyThread` in terms of the threads: the one that goes on running or the earliest queued of the best ready
threads, and what is left in the ready queue.

* A round is described by the list of the queue, `entries`: the first thread that can be scheduled is taken out, and the
  skipped ones are back at their places.
* A round whose thread is put to sleep by the limiter changes nothing for the threads that the limiter lets run
  (`Unseen`), so that the rounds are an induction.
-/

namespace SweepDSEmu.Scheduler

def entries (s : Scheduler) (core : Nat) : List (Nat × ThreadId) := (s.managers core).readyQueue.toList numQueues

def limited (s : Scheduler) (core : Nat) (t : ThreadId) : Bool := decide (core = 1) && s.timeLimited t

def eligible (s : Scheduler) (core : Nat) (t : ThreadId) : Bool := s.canSchedule t && !s.limited core t

/-- The thread is one of those that the selection chooses from. -/
structure Candidate (s : Scheduler) (core : Nat) (t : ThreadId) : Prop where
  ready : s.status t = .ready
  coreId : s.coreId t = core
  eligible : s.eligible core t = true

structure Continues (s : Scheduler) (core : Nat) (t : ThreadId) : Prop where
  current : (s.managers core).currentThread = some t
  running : s.status t = .running
  eligible : s.eligible core t = true
  best : ∀ u, s.Candidate core u → ¬ s.currentPriority u < s.currentPriority t

structure EarliestBest (s : Scheduler) (core : Nat) (t : ThreadId) : Prop where
  candidate : s.Candidate core t
  best : ∀ u, s.Candidate core u → s.currentPriority t ≤ s.currentPriority u
  earliest : ((s.managers core).readyQueue.data (s.currentPriority t)).find? (s.eligible core) = some t

structure Selects (s : Scheduler) (core : Nat) (next : Option ThreadId) : Prop where
  continues : ∀ t, s.Continues core t → next = some t
  none : (∀ t, ¬ s.Continues core t) → next = none → ∀ u, ¬ s.Candidate core u
  some : (∀ t, ¬ s.Continues core t) → ∀ t, next = some t → s.EarliestBest core t

/-- The threads that stay in the ready queue: those that are not limited, but for the selected one. -/
def stays (s : Scheduler) (core : Nat) (next : Option ThreadId) (t : ThreadId) : Bool :=
  !s.limited core t && decide (next ≠ Option.some t)

structure Leaves (s : Scheduler) (core : Nat) (next : Option ThreadId) (s' : Scheduler) : Prop where
  sublist : ∀ p, p < numQueues → ((s'.managers core).readyQueue.data p).Sublist ((s.managers core).readyQueue.data p)
  stays : ∀ p, p < numQueues → ((s'.managers core).readyQueue.data p).filter (s.stays core next) =
    ((s.managers core).readyQueue.data p).filter (s.stays core next)

section Round

variable {s : Scheduler} {core : Nat}

def better (s : Scheduler) (core p : Nat) : Bool :=
  match s.keepsRunning core with
  | some thread => p < s.currentPriority thread
  | none => true

theorem Consistent.filled (h : Consistent none s) (core : Nat) : (s.managers core).readyQueue.Filled := by
  intro p t ht
  have hpos : 0 < (s.managers core).readyQueue.count p t := List.count_pos_iff.mpr ht
  rw [h.count] at hpos
  split at hpos
  · rename_i hc
    obtain ⟨hready, hcore, hprio, -⟩ := hc
    have hl := h.linked t (h.created t (by rw [hready]; decide))
    rw [hcore, hprio] at hl
    exact hl
  · exact absurd hpos (Nat.lt_irrefl 0)

theorem Consistent.mem_entries (h : Consistent none s) {core p : Nat} {t : ThreadId} :
    (p, t) ∈ s.entries core ↔ s.status t = .ready ∧ s.coreId t = core ∧ s.currentPriority t = p := by
  rw [entries, ThreadQueueList.mem_toList]
  have hcount : (s.managers core).readyQueue.count p t = _ := h.count core p t
  have hmem : t ∈ (s.managers core).readyQueue.data p ↔ 0 < (s.managers core).readyQueue.count p t :=
    List.count_pos_iff.symm
  rw [hmem, hcount]
  constructor
  · rintro ⟨-, hpos⟩
    split at hpos
    · rename_i hc
      exact ⟨hc.1, hc.2.1, hc.2.2.1⟩
    · exact absurd hpos (Nat.lt_irrefl 0)
  · rintro ⟨hready, hcore, hprio⟩
    rw [if_pos ⟨hready, hcore, hprio, (Option.some_ne_none t).symm⟩]
    exact ⟨hprio ▸ h.priority t, Nat.one_pos⟩

private theorem Consistent.popFor_eq (h : Consistent none s) {q : ThreadQueueList ThreadId}
    (hlinks : SameLinks (s.managers core).readyQueue q) (hf : q.Filled) :
    s.popFor core q = some (q.popped ((q.toList numQueues).head?.filter fun e => s.better core e.1)) := by
  have hwf : q.WF numQueues := (h.wf core).congr hlinks.1 hlinks.2
  unfold popFor better
  cases hk : s.keepsRunning core with
  | none =>
    show (q.seek numQueues q.first).map q.popped = _
    rw [hwf.seek_eq hf]
    cases (q.toList numQueues).head? <;> rfl
  | some t =>
    obtain ⟨hcur, -, -⟩ := keepsRunning_eq_some.1 hk
    obtain ⟨hcore, hlt⟩ := h.current core t hcur
    have hl : q.Linked (s.currentPriority t) := by
      have hlinked := h.linked t hlt
      rw [hcore] at hlinked
      unfold ThreadQueueList.Linked at hlinked ⊢
      rw [hlinks.2]
      exact hlinked
    show (q.seekBetter (s.currentPriority t) numQueues q.first).map q.popped = _
    rw [hwf.seekBetter_eq hf hl]
    rfl

private theorem Consistent.popSchedulable_lists (h : Consistent none s) (n : Nat) :
    ∀ q skipped next q' skipped', SameLinks (s.managers core).readyQueue q → q.Filled →
      s.popSchedulable (s.popFor core) n q skipped = .ok (next, q', skipped') →
      ∃ l, skipped' = skipped ++ l ∧ (∀ e ∈ l, s.canSchedule e.2 = false) ∧
        (next = none ∧ q.toList numQueues = l ++ q'.toList numQueues ∧
            (∀ e, (q'.toList numQueues).head? = some e → s.better core e.1 = false) ∨
          ∃ p t, next = some t ∧ q.toList numQueues = l ++ (p, t) :: q'.toList numQueues ∧
            s.canSchedule t = true ∧ s.better core p = true) := by
  induction n with
  | zero =>
    intro q skipped next q' skipped' _ _ hrun
    cases hrun
  | succ n ih =>
    intro q skipped next q' skipped' hlinks hf hrun
    unfold popSchedulable at hrun
    rw [h.popFor_eq hlinks hf] at hrun
    cases hhead : (q.toList numQueues).head?.filter fun e => s.better core e.1 with
    | none =>
      rw [hhead] at hrun
      cases hrun
      refine ⟨[], (List.append_nil _).symm, fun e he => (List.not_mem_nil he).elim, Or.inl ⟨rfl, rfl, ?_⟩⟩
      intro e he
      have hnot := Option.filter_eq_none_iff.mp hhead e he
      simpa using hnot
    | some e =>
      obtain ⟨p, t⟩ := e
      rw [hhead] at hrun
      obtain ⟨hfront, hbetter⟩ := Option.filter_eq_some_iff.mp hhead
      obtain ⟨l, hl⟩ := List.head?_eq_some_iff.mp hfront
      have hdrop : (q.dropFront p).toList numQueues = l := ThreadQueueList.toList_dropFront hl
      simp only [ThreadQueueList.popped] at hrun
      split at hrun
      · rename_i hcan
        cases hrun
        refine ⟨[], (List.append_nil _).symm, fun e he => (List.not_mem_nil he).elim,
          Or.inr ⟨p, t, rfl, ?_, hcan, hbetter⟩⟩
        rw [hl, hdrop]
        rfl
      · rename_i hcan
        obtain ⟨l', hskipped, hall, hres⟩ := ih (q.dropFront p) (skipped ++ [(p, t)]) next q' skipped' hlinks
          (hf.dropFront p) hrun
        refine ⟨(p, t) :: l', ?_, ?_, ?_⟩
        · rw [hskipped, List.append_assoc]
          rfl
        · intro e he
          rcases List.mem_cons.mp he with rfl | he
          · simpa using hcan
          · exact hall e he
        · rw [hdrop] at hres
          rcases hres with ⟨hnext, hlist, hlast⟩ | ⟨p', t', hnext, hlist, hrest⟩
          · refine Or.inl ⟨hnext, ?_, hlast⟩
            rw [hl, hlist]
            rfl
          · refine Or.inr ⟨p', t', hnext, ?_, hrest⟩
            rw [hl, hlist]
            rfl

private theorem toList_pushSkipped (q : ThreadQueueList ThreadId) {l : List (Nat × ThreadId)}
    (hsorted : (l ++ q.toList numQueues).Pairwise fun e e' => e.1 ≤ e'.1) (hlow : ∀ e ∈ l, e.1 < numQueues) :
    (pushSkipped q l).toList numQueues = l ++ q.toList numQueues := by
  induction l with
  | nil => rfl
  | cons e l ih =>
    obtain ⟨p, t⟩ := e
    rw [List.cons_append, List.pairwise_cons] at hsorted
    have hrest := ih hsorted.2 fun e he => hlow e (List.mem_cons_of_mem _ he)
    have hle : ∀ e ∈ (pushSkipped q l).toList numQueues, p ≤ e.1 := by
      rw [hrest]
      exact hsorted.1
    have hpush := ThreadQueueList.toList_pushFront (hlow (p, t) List.mem_cons_self) t hle
    rw [hrest] at hpush
    exact hpush

inductive Round (s : Scheduler) (core : Nat) (next : Option ThreadId) (l' : List (Nat × ThreadId)) : Prop where
  /-- No thread is taken. -/
  | keep (hnext : next = s.keepsRunning core) (hl : l' = s.entries core)
      (hbest : ∀ e ∈ s.entries core, s.canSchedule e.2 = true → s.better core e.1 = false)
  /-- The first thread that can be scheduled is taken. -/
  | take (p : Nat) (t : ThreadId) (l₁ l₂ : List (Nat × ThreadId)) (hnext : next = some t)
      (hl : s.entries core = l₁ ++ (p, t) :: l₂) (hl' : l' = l₁ ++ l₂)
      (hskip : ∀ e ∈ l₁, s.canSchedule e.2 = false) (hcan : s.canSchedule t = true)
      (hbetter : s.better core p = true)

private theorem better_mono {p p' : Nat} (hle : p ≤ p') (h : s.better core p = false) :
    s.better core p' = false := by
  unfold better at h ⊢
  split at h
  · simp only [decide_eq_false_iff_not] at h ⊢
    omega
  · cases h

theorem Consistent.selectThread_round (h : Consistent none s) {next : Option ThreadId} {q : ThreadQueueList ThreadId}
    (hsel : s.selectThread core = .ok (next, s.modifyQueue core fun _ => q)) :
    Round s core next (q.toList numQueues) := by
  obtain ⟨⟨found, q', skipped⟩, hpop, hret⟩ := ok_of_bind hsel
  obtain ⟨hnext, hs⟩ := Prod.mk.inj (Except.ok.inj hret)
  have hq : q = pushSkipped q' skipped := by
    have hm := congrArg (fun s : Scheduler => (s.managers core).readyQueue) hs
    simp only [readyQueue_modifyQueue, if_pos] at hm
    exact hm.symm
  obtain ⟨l, hskipped, hall, hres⟩ := h.popSchedulable_lists _ _ [] found q' skipped ⟨rfl, rfl⟩ (h.filled core) hpop
  have hsorted := (s.managers core).readyQueue.pairwise_toList numQueues
  have hlow : ∀ e ∈ s.entries core, e.1 < numQueues := fun e he => (ThreadQueueList.mem_toList.mp he).1
  rw [hq, hskipped]
  rcases hres with ⟨hfound, hlist, hlast⟩ | ⟨p, t, hfound, hlist, hcan, hbetter⟩
  · have hentries : s.entries core = l ++ q'.toList numQueues := hlist
    rw [hlist] at hsorted
    have hpush := toList_pushSkipped q' hsorted fun e he => hlow e (hentries ▸ List.mem_append_left _ he)
    refine Round.keep (by rw [← hnext, hfound]; rfl) (hpush.trans hentries.symm) ?_
    intro e he hcan
    rw [hentries] at he
    rcases List.mem_append.mp he with he | he
    · rw [hall e he] at hcan
      cases hcan
    · -- the first thread that was left is not better, and the others come after it
      cases hrest : q'.toList numQueues with
      | nil =>
        rw [hrest] at he
        cases he
      | cons a rest =>
        have ha : s.better core a.1 = false := hlast a (by rw [hrest]; rfl)
        rw [hrest] at he hsorted
        rcases List.mem_cons.mp he with rfl | he
        · exact ha
        · have hcons := (List.pairwise_append.mp hsorted).2.1
          exact better_mono ((List.pairwise_cons.mp hcons).1 e he) ha
  · have hentries : s.entries core = l ++ (p, t) :: q'.toList numQueues := hlist
    rw [hlist] at hsorted
    have hsub : (l ++ q'.toList numQueues).Sublist (l ++ (p, t) :: q'.toList numQueues) :=
      (List.Sublist.refl l).append (List.sublist_cons_self _ _)
    have hpush := toList_pushSkipped q' (hsorted.sublist hsub) fun e he =>
      hlow e (hentries ▸ List.mem_append_left _ he)
    exact Round.take p t l (q'.toList numQueues) (by rw [← hnext, hfound]; rfl) hentries hpush hall hcan hbetter

end Round

section Last

variable {s : Scheduler} {core : Nat}

private theorem filter_data_of_toList {q q' : ThreadQueueList ThreadId} {f : ThreadId → Bool}
    (h : ((q'.toList numQueues).filter fun e => f e.2) = (q.toList numQueues).filter fun e => f e.2) {p : Nat}
    (hp : p < numQueues) : (q'.data p).filter f = (q.data p).filter f := by
  have hdata : ∀ r : ThreadQueueList ThreadId, (r.data p).filter f =
      (((r.toList numQueues).filter fun e => f e.2).filter fun e => e.1 = p).map Prod.snd := by
    intro r
    rw [ThreadQueueList.data_eq_toList hp, List.filter_map, List.filter_filter, List.filter_filter]
    congr 2
    funext e
    exact Bool.and_comm _ _
  rw [hdata, hdata, h]

private theorem data_sublist_of_toList {q q' : ThreadQueueList ThreadId}
    (h : (q'.toList numQueues).Sublist (q.toList numQueues)) {p : Nat} (hp : p < numQueues) :
    (q'.data p).Sublist (q.data p) := by
  rw [ThreadQueueList.data_eq_toList hp, ThreadQueueList.data_eq_toList hp]
  exact (h.filter _).map _

private theorem Round.leaves {next : Option ThreadId} {q : ThreadQueueList ThreadId}
    (h : Round s core next (q.toList numQueues)) {f : ThreadId → Bool} (hf : ∀ t, next = some t → f t = false) {p : Nat}
    (hp : p < numQueues) : (q.data p).Sublist ((s.managers core).readyQueue.data p) ∧
      (q.data p).filter f = ((s.managers core).readyQueue.data p).filter f := by
  cases h with
  | keep hnext hl hbest =>
    refine ⟨data_sublist_of_toList ?_ hp, filter_data_of_toList ?_ hp⟩
    · rw [hl]
      exact List.Sublist.refl _
    · rw [hl]
      rfl
  | take p' t l₁ l₂ hnext hl hl' hskip hcan hbetter =>
    have hentries : (s.managers core).readyQueue.toList numQueues = l₁ ++ (p', t) :: l₂ := hl
    refine ⟨data_sublist_of_toList ?_ hp, filter_data_of_toList ?_ hp⟩
    · rw [hl', hentries]
      exact (List.Sublist.refl l₁).append (List.sublist_cons_self _ _)
    · rw [hl', hentries, List.filter_append, List.filter_append, List.filter_cons_of_neg]
      simp [hf t hnext]

theorem eligible_eq_true {t : ThreadId} :
    s.eligible core t = true ↔ s.canSchedule t = true ∧ s.limited core t = false := by
  unfold eligible
  rw [Bool.and_eq_true, Bool.not_eq_true']

theorem Continues.keepsRunning {t : ThreadId} (h : s.Continues core t) : s.keepsRunning core = some t :=
  keepsRunning_eq_some.2 ⟨h.current, h.running, (eligible_eq_true.1 h.eligible).1⟩

theorem Consistent.candidate_mem (h : Consistent none s) {u : ThreadId} (hu : s.Candidate core u) :
    (s.currentPriority u, u) ∈ s.entries core ∧ s.canSchedule u = true :=
  ⟨h.mem_entries.mpr ⟨hu.ready, hu.coreId, rfl⟩, (eligible_eq_true.1 hu.eligible).1⟩

private theorem Consistent.selects_of_round (h : Consistent none s) {next : Option ThreadId}
    {l : List (Nat × ThreadId)} (hround : Round s core next l)
    (hlimit : ∀ t, next = some t → s.limited core t = false) : s.Selects core next := by
  cases hround with
  | keep hnext hl hbest =>
    have hnone : ∀ u, s.Candidate core u → s.better core (s.currentPriority u) = false := by
      intro u hu
      obtain ⟨hmem, hcan⟩ := h.candidate_mem hu
      exact hbest _ hmem hcan
    -- the thread that keeps running goes on
    have hcont : ∀ t, next = some t → s.Continues core t := by
      intro t ht
      have hkeep := hnext.symm.trans ht
      obtain ⟨hcur, hrun, hcan⟩ := keepsRunning_eq_some.1 hkeep
      refine ⟨hcur, hrun, eligible_eq_true.2 ⟨hcan, hlimit t ht⟩, ?_⟩
      intro u hu
      have hu' := hnone u hu
      rw [better, hkeep] at hu'
      simpa using hu'
    constructor
    · intro t ht
      rw [hnext, ht.keepsRunning]
    · intro _ hn u hu
      have hu' := hnone u hu
      rw [better, ← hnext, hn] at hu'
      cases hu'
    · intro hno t ht
      exact absurd (hcont t ht) (hno t)
  | take p t l₁ l₂ hnext hl hl' hskip hcan hbetter =>
    have hmem : (p, t) ∈ s.entries core := by
      rw [hl]
      exact List.mem_append_right _ List.mem_cons_self
    obtain ⟨hready, hcore, hprio⟩ := h.mem_entries.mp hmem
    have helig : s.eligible core t = true := eligible_eq_true.2 ⟨hcan, hlimit t hnext⟩
    have hcand : s.Candidate core t := ⟨hready, hcore, helig⟩
    have hno : ∀ u, ¬ s.Continues core u := by
      intro u hu
      rw [better, hu.keepsRunning] at hbetter
      refine hu.best t hcand ?_
      rw [hprio]
      simpa using hbetter
    have hsorted := (s.managers core).readyQueue.pairwise_toList numQueues
    rw [show (s.managers core).readyQueue.toList numQueues = _ from hl] at hsorted
    have hafter := (List.pairwise_cons.mp (List.pairwise_append.mp hsorted).2.1).1
    constructor
    · intro u hu
      exact absurd hu (hno u)
    · intro _ hn
      rw [hn] at hnext
      cases hnext
    · intro _ u hu
      rw [hnext, Option.some_inj] at hu
      subst hu
      refine ⟨hcand, ?_, ?_⟩
      · intro v hv
        obtain ⟨hvmem, hvcan⟩ := h.candidate_mem hv
        rw [hl] at hvmem
        rcases List.mem_append.mp hvmem with hv | hv
        · rw [hskip _ hv] at hvcan
          cases hvcan
        · rcases List.mem_cons.mp hv with hv | hv
          · rw [(Prod.mk.inj hv).1, hprio]
          · rw [hprio]
            exact hafter _ hv
      · have hp : p < numQueues := hprio ▸ h.priority t
        rw [hprio, ThreadQueueList.data_eq_toList hp, show (s.managers core).readyQueue.toList numQueues = _ from hl,
          List.filter_append, List.map_append, List.find?_append]
        have hfirst : (((l₁.filter fun e => e.1 = p).map Prod.snd).find? (s.eligible core)) = none := by
          rw [List.find?_eq_none]
          intro u hu
          obtain ⟨e, he, rfl⟩ := List.mem_map.mp hu
          rw [eligible, hskip e (List.mem_of_mem_filter he)]
          simp
        rw [hfirst, List.filter_cons_of_pos (by simp), List.map_cons, List.find?_cons_of_pos helig]
        rfl

end Last

section Rounds

variable {s s' : Scheduler} {core : Nat}

/-- A change that the threads which the limiter lets run do not see. -/
structure Unseen (core : Nat) (s s' : Scheduler) : Prop where
  canSchedule : s'.canSchedule = s.canSchedule
  limited : s'.limited core = s.limited core
  currentPriority : s'.currentPriority = s.currentPriority
  coreId : s'.coreId = s.coreId
  currentThread : (s'.managers core).currentThread = (s.managers core).currentThread
  status : ∀ u, s.limited core u = false → s'.status u = s.status u
  sublist : ∀ p, p < numQueues → ((s'.managers core).readyQueue.data p).Sublist ((s.managers core).readyQueue.data p)
  queue : ∀ p, p < numQueues → ((s'.managers core).readyQueue.data p).filter (fun u => !s.limited core u) =
    ((s.managers core).readyQueue.data p).filter fun u => !s.limited core u

private theorem Unseen.eligible (h : Unseen core s s') : s'.eligible core = s.eligible core := by
  funext t
  unfold Scheduler.eligible
  rw [h.canSchedule, h.limited]

theorem Unseen.candidate (h : Unseen core s s') {u : ThreadId} :
    s'.Candidate core u ↔ s.Candidate core u := by
  constructor
  · rintro ⟨hready, hcore, helig⟩
    rw [h.eligible] at helig
    rw [h.status u (eligible_eq_true.1 helig).2] at hready
    rw [h.coreId] at hcore
    exact ⟨hready, hcore, helig⟩
  · rintro ⟨hready, hcore, helig⟩
    refine ⟨?_, ?_, ?_⟩
    · rw [h.status u (eligible_eq_true.1 helig).2]
      exact hready
    · rw [h.coreId]
      exact hcore
    · rw [h.eligible]
      exact helig

private theorem Unseen.continues (h : Unseen core s s') {t : ThreadId} :
    s'.Continues core t ↔ s.Continues core t := by
  constructor
  · rintro ⟨hcur, hrun, helig, hbest⟩
    rw [h.eligible] at helig
    rw [h.currentThread] at hcur
    rw [h.status t (eligible_eq_true.1 helig).2] at hrun
    rw [h.currentPriority] at hbest
    exact ⟨hcur, hrun, helig, fun u hu => hbest u (h.candidate.2 hu)⟩
  · rintro ⟨hcur, hrun, helig, hbest⟩
    refine ⟨?_, ?_, ?_, ?_⟩
    · rw [h.currentThread]
      exact hcur
    · rw [h.status t (eligible_eq_true.1 helig).2]
      exact hrun
    · rw [h.eligible]
      exact helig
    · intro u hu
      rw [h.currentPriority]
      exact hbest u (h.candidate.1 hu)

private theorem find?_eligible (s : Scheduler) (core : Nat) (l : List ThreadId) :
    (l.filter fun u => !s.limited core u).find? (s.eligible core) = l.find? (s.eligible core) := by
  rw [List.find?_filter]
  congr 1
  funext u
  unfold Scheduler.eligible
  cases s.limited core u <;> simp

private theorem Unseen.earliestBest (h : Unseen core s s') {t : ThreadId} (hp : s.currentPriority t < numQueues)
    (ht : s'.EarliestBest core t) : s.EarliestBest core t := by
  obtain ⟨hcand, hbest, hfirst⟩ := ht
  rw [h.currentPriority] at hbest hfirst
  rw [h.eligible, ← find?_eligible, h.queue _ hp, find?_eligible] at hfirst
  exact ⟨h.candidate.1 hcand, fun u hu => hbest u (h.candidate.2 hu), hfirst⟩

variable {next : Option ThreadId}

private theorem Unseen.selects (h : Unseen core s s') (hp : ∀ t, s.currentPriority t < numQueues) (hs : s'.Selects core next) : s.Selects core next := by
  have hno : (∀ t, ¬ s.Continues core t) → ∀ t, ¬ s'.Continues core t := fun hc t ht => hc t (h.continues.1 ht)
  constructor
  · exact fun t ht => hs.continues t (h.continues.2 ht)
  · exact fun hc hn u hu => hs.none (hno hc) hn u (h.candidate.2 hu)
  · exact fun hc t ht => h.earliestBest (hp t) (hs.some (hno hc) t ht)

private theorem Unseen.leaves (h : Unseen core s s') {s'' : Scheduler}
    (hl : s'.Leaves core next s'') : s.Leaves core next s'' := by
  have hstays : s'.stays core next = s.stays core next := by
    funext t
    unfold Scheduler.stays
    rw [h.limited]
  constructor
  · exact fun p hp => (hl.sublist p hp).trans (h.sublist p hp)
  · intro p hp
    have hs' := hl.stays p hp
    rw [hstays] at hs'
    -- the threads that stay are among those that are not limited
    have hfilter : ∀ l : List ThreadId, l.filter (s.stays core next) =
        (l.filter fun u => !s.limited core u).filter (s.stays core next) := by
      intro l
      rw [List.filter_filter]
      congr 1
      funext u
      unfold Scheduler.stays
      cases s.limited core u <;> simp
    rw [hs', hfilter, h.queue p hp, ← hfilter]

private theorem timeLimited_modifyQueue (core : Nat) (f : ThreadQueueList ThreadId → ThreadQueueList ThreadId) :
    (s.modifyQueue core f).timeLimited = s.timeLimited := rfl

private theorem timeLimited_putToSleep (t : ThreadId) : (s.putToSleep t).timeLimited = s.timeLimited := by
  funext u
  have hl : (s.putToSleep t).cpuLimiter =
      { s.cpuLimiter with sleepingThreadIds := s.cpuLimiter.sleepingThreadIds ++ [t] } := Function.update_self ..
  unfold timeLimited
  rw [hl]
  rfl

theorem unseen_of_round {t : ThreadId} {q : ThreadQueueList ThreadId}
    (hround : Round s core (some t) (q.toList numQueues)) (hlimit : s.limited core t = true) :
    Unseen core s ((s.modifyQueue core fun _ => q).putToSleep t) := by
  have hqueue : (((s.modifyQueue core fun _ => q).putToSleep t).managers core).readyQueue = q := by
    show ((s.modifyQueue core fun _ => q).managers core).readyQueue = q
    rw [readyQueue_modifyQueue, if_pos rfl]
  constructor
  case canSchedule => rfl
  case limited =>
    funext u
    unfold Scheduler.limited
    rw [timeLimited_putToSleep, timeLimited_modifyQueue]
  case currentPriority => rfl
  case coreId => rfl
  case currentThread =>
    show ((s.modifyQueue core fun _ => q).managers core).currentThread = _
    exact (manager_modifyQueue _).1
  case status =>
    intro u hu
    show ((s.modifyQueue core fun _ => q).setStatus t .waitSleep).status u = s.status u
    rw [status_setStatus, if_neg]
    · rfl
    · rintro rfl
      rw [hlimit] at hu
      cases hu
  case sublist =>
    intro p hp
    rw [hqueue]
    exact (hround.leaves (f := fun _ => false) (fun _ _ => rfl) hp).1
  case queue =>
    intro p hp
    rw [hqueue]
    refine (hround.leaves ?_ hp).2
    intro u hu
    rw [← Option.some_inj.mp hu, hlimit]
    rfl

private theorem popNextReadyThread_mono {n : Nat} {r : Option ThreadId × Scheduler} :
    ∀ {s : Scheduler}, popNextReadyThread core n s = .ok r → ∀ m, n ≤ m → popNextReadyThread core m s = .ok r := by
  induction n with
  | zero =>
    intro s h
    cases h
  | succ n ih =>
    intro s h m hm
    obtain ⟨m, rfl⟩ : ∃ k, m = k + 1 := ⟨m - 1, by omega⟩
    unfold popNextReadyThread at h ⊢
    obtain ⟨⟨next, s₁⟩, hsel, hrest⟩ := ok_of_bind h
    rw [hsel, ok_bind]
    cases next with
    | none => exact hrest
    | some t =>
      dsimp only at hrest ⊢
      by_cases hlim : core = 1 ∧ s₁.timeLimited t = true
      · rw [if_pos hlim] at hrest ⊢
        exact ih hrest m (by omega)
      · rw [if_neg hlim] at hrest ⊢
        exact hrest

/-- What holds of the last round, and of a round and the ones after it, holds of `PopNextReadyThread`. -/
theorem Consistent.pop_induction {P : Scheduler → Option ThreadId → Scheduler → Prop}
    (hlast : ∀ s found q, Consistent none s → Round s core found (q.toList numQueues) →
      (∀ t, found = some t → s.limited core t = false) → P s found (s.modifyQueue core fun _ => q))
    (hsleep : ∀ s t q next s', Consistent none s → Round s core (some t) (q.toList numQueues) →
      s.limited core t = true → P ((s.modifyQueue core fun _ => q).putToSleep t) next s' → P s next s') (n : Nat) :
    ∀ s, Consistent none s → ∀ next s', Scheduler.popNextReadyThread core n s = .ok (next, s') → P s next s' := by
  induction n with
  | zero =>
    intro s _ next s' hpop
    cases hpop
  | succ n ih =>
    intro s h next s' hpop
    obtain ⟨found, q, hsel, hcases⟩ := h.selectThread core
    have hround := h.selectThread_round hsel
    unfold Scheduler.popNextReadyThread at hpop
    rw [hsel, ok_bind] at hpop
    cases found with
    | none =>
      cases hpop
      exact hlast s none q h hround fun t ht => by cases ht
    | some t =>
      dsimp only at hpop
      split at hpop
      · rename_i hlim
        have hlimit : s.limited core t = true := by
          unfold Scheduler.limited
          rw [decide_eq_true hlim.1]
          exact hlim.2
        refine hsleep s t q next s' h hround hlimit (ih _ ?_ next s' hpop)
        rcases hcases with ⟨hkeep, hc, -⟩ | ⟨u, hu, hready, -, hc, -⟩
        · exact hc.putToSleep (Or.inl ⟨rfl, (keepsRunning_eq_some.1 hkeep.symm).2.1⟩)
        · rw [← Option.some_inj.mp hu] at hc hready
          exact hc.putToSleep (Or.inr ⟨rfl, hready⟩)
      · rename_i hlim
        cases hpop
        refine hlast s (some t) q h hround fun u hu => ?_
        rw [← Option.some_inj.mp hu]
        unfold Scheduler.limited
        rw [Bool.and_eq_false_iff, decide_eq_false_iff_not]
        by_cases hcore : core = 1
        · have hnot : ¬ s.timeLimited t = true := fun ht => hlim ⟨hcore, ht⟩
          exact Or.inr (Bool.eq_false_iff.mpr hnot)
        · exact Or.inl hcore

private theorem leaves_of_round {q : ThreadQueueList ThreadId}
    (hround : Round s core next (q.toList numQueues)) : s.Leaves core next (s.modifyQueue core fun _ => q) := by
  have hqueue : ((s.modifyQueue core fun _ => q).managers core).readyQueue = q := by
    rw [readyQueue_modifyQueue, if_pos rfl]
  have hnext : ∀ t, next = some t → s.stays core next t = false := by
    intro t ht
    unfold Scheduler.stays
    rw [ht]
    simp
  constructor
  · intro p hp
    rw [hqueue]
    exact (hround.leaves hnext hp).1
  · intro p hp
    rw [hqueue]
    exact (hround.leaves hnext hp).2

theorem Consistent.selects_of_pop {n : Nat} (h : Consistent none s)
    (hpop : Scheduler.popNextReadyThread core n s = .ok (next, s')) : s.Selects core next ∧ s.Leaves core next s' := by
  refine Consistent.pop_induction (P := fun s next s' => (∀ t, s.currentPriority t < numQueues) →
    s.Selects core next ∧ s.Leaves core next s') ?_ ?_ n s h next s' hpop h.priority
  · intro s found q h hround hlimit _
    exact ⟨h.selects_of_round hround hlimit, leaves_of_round hround⟩
  · intro s t q next s' h hround hlimit ih hprio
    have hunseen := unseen_of_round hround hlimit
    obtain ⟨hs, hl⟩ := ih fun u => by
      exact hprio u
    exact ⟨hunseen.selects hprio hs, hunseen.leaves hl⟩

/-- From every state with consistent ready queues `PopNextReadyThread` ends.  It returns the current thread if that goes
on running, else the earliest queued of the best candidates, and the other threads that are not limited stay where they
are in the ready queue. -/
theorem popNextReadyThread_selects (s : Scheduler) (h : Consistent none s) (core : Nat) :
    ∃ next s', (∀ n, s.rounds core < n → popNextReadyThread core n s = .ok (next, s')) ∧
      s.Selects core next ∧ s.Leaves core next s' := by
  obtain ⟨next, s', hpop, -, -⟩ := Consistent.popNextReadyThread core _ s h (Nat.lt_succ_self _)
  obtain ⟨hs, hl⟩ := h.selects_of_pop hpop
  exact ⟨next, s', fun n hn => popNextReadyThread_mono hpop n hn, hs, hl⟩

/-- The selection after two threads have been created and the better one is ready again. -/
theorem sampleOps_selects : ∃ s next s', run sampleOps = .ok s ∧ Consistent none s ∧
    popNextReadyThread 0 (s.rounds 0 + 1) s = .ok (next, s') ∧ s.Selects 0 next ∧ s.Leaves 0 next s' := by
  have hops : PermittedRun {} sampleOps := by
    simp [sampleOps, PermittedRun, Permitted, waitStatuses]
  obtain ⟨s, hrun, h⟩ := consistent_empty.foldlM hops
  obtain ⟨next, s', hpop, hs, hl⟩ := popNextReadyThread_selects s h 0
  exact ⟨s, next, s', hrun, h, hpop _ (Nat.lt_succ_self _), hs, hl⟩

end Rounds

end SweepDSEmu.Scheduler
