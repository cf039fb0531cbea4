import SweepDSEmu.Kernel.AddressArbiter

/-!
# Signals of address arbiters

Between two operations the waiting lists of the arbiters hold exactly the threads that wait for an address, each in one
list and once.

* `Leaves` says what it means that some threads of one arbiter are resumed; a signal and a timeout are such steps.
* A signal resumes the threads of its address in the order of `Precedes`: by priority, and then by the time they began
  to wait.
-/

namespace SweepDSEmu.ArbiterKernel

structure Waiting (s : ArbiterKernel) : Prop where
  nodup : ∀ a, (s.waitingThreads a).Nodup
  status : ∀ a, ∀ t ∈ s.waitingThreads a, s.status t = .waitArb
  waits : ∀ t, s.status t = .waitArb → ∃! a, t ∈ s.waitingThreads a

structure Sound (s : ArbiterKernel) : Prop extends Waiting s where
  scheduled : ∀ t, s.status t = .waitArb → s.wakeupScheduled t = true →
    ∃ a, s.wakeupCallback t = some a ∧ t ∈ s.waitingThreads a
  running : ∀ t, s.status t = .running → s.wakeupScheduled t = false
  callback : ∀ t, s.status t = .running ∨ s.status t = .ready → s.wakeupCallback t = none
  fresh : ∀ t, s.nextThreadId ≤ t → s.status t = .dead ∧ s.wakeupCallback t = none
  since : ∀ a, ∀ t ∈ s.waitingThreads a, s.waitingSince t < s.clock
  order : ∀ a address, ((s.waitingThreads a).filter (s.waitAddress · = address)).Pairwise
    (s.waitingSince · < s.waitingSince ·)

variable {s s' s'' : ArbiterKernel} {a b : ArbiterId} {t u : ThreadId} {resumed resumed' : List ThreadId}
  {address : Nat}

theorem Waiting.unique (h : s.Waiting) (ha : t ∈ s.waitingThreads a) (hb : t ∈ s.waitingThreads b) : a = b :=
  (h.waits t (h.status a t ha)).unique ha hb

theorem sound_init : Sound {} where
  nodup := fun _ => List.nodup_nil
  status := fun _ _ ht => by cases ht
  waits := fun _ ht => by cases ht
  scheduled := fun _ ht => by cases ht
  running := fun _ _ => rfl
  callback := fun _ _ => rfl
  fresh := fun _ _ => ⟨rfl, rfl⟩
  since := fun _ _ ht => by cases ht
  order := fun _ _ => List.Pairwise.nil

/-- The threads of `resumed` leave the list of the arbiter and are ready; the rest of the state is as before. -/
structure Leaves (s s' : ArbiterKernel) (a : ArbiterId) (resumed : List ThreadId) : Prop where
  subset : ∀ t ∈ resumed, t ∈ s.waitingThreads a
  mem : ∀ t, t ∈ s'.waitingThreads a ↔ t ∈ s.waitingThreads a ∧ t ∉ resumed
  nodup : (s'.waitingThreads a).Nodup
  order : ∀ address, (s'.waitingThreads a).filter (s.waitAddress · = address) =
    ((s.waitingThreads a).filter (s.waitAddress · = address)).filter (· ∉ resumed)
  other : ∀ b, b ≠ a → s'.waitingThreads b = s.waitingThreads b
  status : ∀ t, s'.status t = if t ∈ resumed then .ready else s.status t
  callback : ∀ t, s'.wakeupCallback t = if t ∈ resumed then none else s.wakeupCallback t
  readied : s'.readied = s.readied ++ resumed
  frame : s' = { s with
    waitingThreads := s'.waitingThreads
    status := s'.status
    wakeupCallback := s'.wakeupCallback
    readied := s'.readied }

namespace Leaves

theorem waitAddress (h : Leaves s s' a resumed) : s'.waitAddress = s.waitAddress := by rw [h.frame]

theorem waitingSince (h : Leaves s s' a resumed) : s'.waitingSince = s.waitingSince := by rw [h.frame]

theorem currentPriority (h : Leaves s s' a resumed) : s'.currentPriority = s.currentPriority := by rw [h.frame]

theorem wakeupScheduled (h : Leaves s s' a resumed) : s'.wakeupScheduled = s.wakeupScheduled := by rw [h.frame]

theorem refl (hnodup : (s.waitingThreads a).Nodup) : Leaves s s a [] where
  subset := fun _ ht => by cases ht
  mem := fun t => by simp
  nodup := hnodup
  order := fun address => by simp
  other := fun _ _ => rfl
  status := fun _ => rfl
  callback := fun _ => rfl
  readied := (List.append_nil _).symm
  frame := rfl

theorem trans (h : Leaves s s' a resumed) (h' : Leaves s' s'' a resumed') : Leaves s s'' a (resumed ++ resumed') where
  subset := by
    intro t ht
    rcases List.mem_append.mp ht with ht | ht
    · exact h.subset t ht
    · exact ((h.mem t).mp (h'.subset t ht)).1
  mem := by
    intro t
    rw [h'.mem, h.mem, List.mem_append, not_or, and_assoc]
  nodup := h'.nodup
  order := by
    intro address
    rw [← h.waitAddress, h'.order, h.waitAddress, h.order, List.filter_filter]
    apply List.filter_congr
    intro t _
    simp [not_or, Bool.and_comm]
  other := fun b hb => (h'.other b hb).trans (h.other b hb)
  status := by
    intro t
    rw [h'.status, h.status]
    split_ifs <;> simp_all
  callback := by
    intro t
    rw [h'.callback, h.callback]
    split_ifs <;> simp_all
  readied := by rw [h'.readied, h.readied, List.append_assoc]
  frame := by
    have hframe := h'.frame
    rw [h.frame] at hframe
    exact hframe

end Leaves

theorem Sound.leaves (h : s.Sound) (hl : Leaves s s' a resumed) : s'.Sound := by
  have hothers : ∀ {b t}, b ≠ a → t ∈ s.waitingThreads b → t ∉ resumed := by
    intro b t hb ht hr
    exact hb (h.unique ht (hl.subset t hr))
  have hstays : ∀ {b t}, t ∈ s'.waitingThreads b ↔ t ∈ s.waitingThreads b ∧ t ∉ resumed := by
    intro b t
    by_cases hb : b = a
    · subst hb
      exact hl.mem t
    · rw [hl.other b hb]
      exact ⟨fun ht => ⟨ht, hothers hb ht⟩, fun ht => ht.1⟩
  have hwaits : ∀ {t}, s'.status t ≠ .ready → t ∉ resumed ∧ s'.status t = s.status t := by
    intro t ht
    rw [hl.status] at ht ⊢
    by_cases hr : t ∈ resumed
    · rw [if_pos hr] at ht
      exact absurd rfl ht
    · exact ⟨hr, if_neg hr⟩
  constructor
  · constructor
    · intro b
      by_cases hb : b = a
      · subst hb
        exact hl.nodup
      · rw [hl.other b hb]
        exact h.nodup b
    · intro b t ht
      obtain ⟨ht, hr⟩ := hstays.mp ht
      rw [hl.status, if_neg hr]
      exact h.status b t ht
    · intro t ht
      obtain ⟨hr, hs⟩ := hwaits (by rw [ht]; decide)
      obtain ⟨b, hb, hunique⟩ := h.waits t (by rw [← hs]; exact ht)
      exact ⟨b, hstays.mpr ⟨hb, hr⟩, fun c hc => hunique c (hstays.mp hc).1⟩
  · intro t ht hscheduled
    obtain ⟨hr, hs⟩ := hwaits (by rw [ht]; decide)
    rw [hl.wakeupScheduled] at hscheduled
    obtain ⟨b, hcallback, hb⟩ := h.scheduled t (by rw [← hs]; exact ht) hscheduled
    exact ⟨b, by rw [hl.callback, if_neg hr]; exact hcallback, hstays.mpr ⟨hb, hr⟩⟩
  · intro t ht
    obtain ⟨-, hs⟩ := hwaits (by rw [ht]; decide)
    rw [hl.wakeupScheduled]
    exact h.running t (by rw [← hs]; exact ht)
  · intro t ht
    rw [hl.status] at ht
    rw [hl.callback]
    by_cases hr : t ∈ resumed
    · rw [if_pos hr]
    · rw [if_neg hr] at ht ⊢
      exact h.callback t ht
  · intro t ht
    have hnext : s'.nextThreadId = s.nextThreadId := by rw [hl.frame]
    rw [hnext] at ht
    obtain ⟨hdead, hnone⟩ := h.fresh t ht
    have hr : t ∉ resumed := by
      intro hr
      have hwait := h.status a t (hl.subset t hr)
      rw [hdead] at hwait
      cases hwait
    rw [hl.status, hl.callback, if_neg hr, if_neg hr]
    exact ⟨hdead, hnone⟩
  · intro b t ht
    have hclock : s'.clock = s.clock := by rw [hl.frame]
    rw [hl.waitingSince, hclock]
    exact h.since b t (hstays.mp ht).1
  · intro b address
    rw [hl.waitAddress, hl.waitingSince]
    by_cases hb : b = a
    · subst hb
      rw [hl.order]
      exact (h.order b address).filter _
    · rw [hl.other b hb]
      exact h.order b address

/-- The order in which the threads of an address are resumed. -/
def Precedes (s : ArbiterKernel) (t u : ThreadId) : Prop :=
  s.currentPriority t < s.currentPriority u ∨
    s.currentPriority t = s.currentPriority u ∧ s.waitingSince t < s.waitingSince u

def waiters (s : ArbiterKernel) (a : ArbiterId) (address : Nat) : List ThreadId :=
  (s.waitingThreads a).filter (s.waitAddress · = address)

theorem mem_waiters : t ∈ s.waiters a address ↔ t ∈ s.waitingThreads a ∧ s.waitAddress t = address := by
  unfold waiters
  rw [List.mem_filter, decide_eq_true_iff]

/-- A signal for `n` threads: the best ones are resumed, in their order. -/
structure Signals (s s' : ArbiterKernel) (a : ArbiterId) (address n : Nat) (resumed : List ThreadId) : Prop
    extends Leaves s s' a resumed where
  sameAddress : ∀ t ∈ resumed, s.waitAddress t = address
  length : resumed.length = min n (s.waiters a address).length
  sorted : resumed.Pairwise s.Precedes
  best : ∀ t ∈ resumed, ∀ u ∈ s.waiters a address, u ∉ resumed → s.Precedes t u

structure Resumes (s s' : ArbiterKernel) (resumed : List ThreadId) : Prop where
  status : ∀ t, s'.status t = if t ∈ resumed then .ready else s.status t
  callback : ∀ t, s'.wakeupCallback t = if t ∈ resumed then none else s.wakeupCallback t
  readied : s'.readied = s.readied ++ resumed
  frame : s' = { s with status := s'.status, wakeupCallback := s'.wakeupCallback, readied := s'.readied }

theorem resumeFromWait_resumes (h : s.status t = .waitArb) :
    ∃ s', s.resumeFromWait t = .ok s' ∧ Resumes s s' [t] := by
  refine ⟨{ (s.setWakeupCallback t none).setStatus t .ready with readied := s.readied ++ [t] }, ?_, ?_, ?_, rfl, rfl⟩
  · unfold resumeFromWait
    rw [h]
  · intro u
    show Function.update s.status t .ready u = _
    rw [Function.update_apply]
    simp only [List.mem_singleton]
  · intro u
    show Function.update s.wakeupCallback t none u = _
    rw [Function.update_apply]
    simp only [List.mem_singleton]

private theorem resumeAll_resumes {l : List ThreadId} (hnodup : l.Nodup) (h : ∀ t ∈ l, s.status t = .waitArb) :
    ∃ s', l.foldlM resumeFromWait s = .ok s' ∧ Resumes s s' l := by
  induction l generalizing s with
  | nil => exact ⟨s, rfl, fun _ => rfl, fun _ => rfl, (List.append_nil _).symm, rfl⟩
  | cons t l ih =>
    obtain ⟨ht, hnodup⟩ := List.nodup_cons.mp hnodup
    obtain ⟨s₁, hs₁, h₁⟩ := resumeFromWait_resumes (h t List.mem_cons_self)
    have hrest : ∀ u ∈ l, s₁.status u = .waitArb := by
      intro u hu
      have hne : u ∉ [t] := by
        rw [List.mem_singleton]
        rintro rfl
        exact ht hu
      rw [h₁.status, if_neg hne]
      exact h u (List.mem_cons_of_mem _ hu)
    obtain ⟨s₂, hs₂, h₂⟩ := ih hnodup hrest
    refine ⟨s₂, ?_, ?_, ?_, ?_, ?_⟩
    · rw [List.foldlM_cons, hs₁, ok_bind, hs₂]
    · intro u
      rw [h₂.status, h₁.status]
      split_ifs <;> simp_all
    · intro u
      rw [h₂.callback, h₁.callback]
      split_ifs <;> simp_all
    · rw [h₂.readied, h₁.readied, List.append_assoc, List.singleton_append]
    · have hframe := h₂.frame
      rw [h₁.frame] at hframe
      exact hframe

private theorem waiters_nodup (h : s.Sound) : (s.waiters a address).Nodup := (h.nodup a).filter _

private theorem partitionThreads_ok (h : s.Sound) : s.partitionThreads a address =
    .ok ((s.waitingThreads a).filter (s.waitAddress · ≠ address), s.waiters a address) := if_pos (h.status a)

private def listAfter (s : ArbiterKernel) (a : ArbiterId) (address : Nat) (resumed : List ThreadId) : List ThreadId :=
  (s.waitingThreads a).filter (s.waitAddress · ≠ address) ++ (s.waiters a address).filter (· ∉ resumed)

private theorem mem_listAfter (hresumed : ∀ t ∈ resumed, t ∈ s.waiters a address) :
    t ∈ s.listAfter a address resumed ↔ t ∈ s.waitingThreads a ∧ t ∉ resumed := by
  have haddress : t ∈ resumed → s.waitAddress t = address := fun ht => (mem_waiters.mp (hresumed t ht)).2
  unfold listAfter
  rw [List.mem_append, List.mem_filter, List.mem_filter, mem_waiters, decide_eq_true_iff, decide_eq_true_iff]
  constructor
  · rintro (⟨ht, hne⟩ | ⟨⟨ht, -⟩, hr⟩)
    · exact ⟨ht, fun hr => hne (haddress hr)⟩
    · exact ⟨ht, hr⟩
  · rintro ⟨ht, hr⟩
    by_cases heq : s.waitAddress t = address
    · exact .inr ⟨⟨ht, heq⟩, hr⟩
    · exact .inl ⟨ht, heq⟩

private theorem nodup_listAfter (h : (s.waitingThreads a).Nodup) : (s.listAfter a address resumed).Nodup := by
  refine List.nodup_append.mpr ⟨h.filter _, (h.filter _).filter _, ?_⟩
  intro t ht u hu htu
  have hne := of_decide_eq_true (List.mem_filter.mp ht).2
  have heq := (mem_waiters.mp (List.mem_filter.mp hu).1).2
  rw [htu] at hne
  exact hne heq

private theorem filter_listAfter (hresumed : ∀ t ∈ resumed, t ∈ s.waiters a address) (x : Nat) :
    (s.listAfter a address resumed).filter (s.waitAddress · = x) =
      ((s.waitingThreads a).filter (s.waitAddress · = x)).filter (· ∉ resumed) := by
  unfold listAfter waiters
  simp only [List.filter_append, List.filter_filter]
  by_cases hx : x = address
  · subst hx
    have hnone : (s.waitingThreads a).filter (fun t => decide (s.waitAddress t = x) && decide (s.waitAddress t ≠ x)) =
        [] := by
      rw [List.filter_eq_nil_iff]
      intro t _
      simp
    rw [hnone, List.nil_append]
    apply List.filter_congr
    intro t _
    by_cases ht : s.waitAddress t = x <;> simp [ht]
  · have hnone : (s.waitingThreads a).filter (fun t => decide (s.waitAddress t = x) &&
        (decide (t ∉ resumed) && decide (s.waitAddress t = address))) = [] := by
      rw [List.filter_eq_nil_iff]
      intro t _ ht
      simp only [Bool.and_eq_true, decide_eq_true_eq] at ht
      exact hx (ht.1.symm.trans ht.2.2)
    rw [hnone, List.append_nil]
    apply List.filter_congr
    intro t _
    by_cases ht : s.waitAddress t = x
    · have hr : t ∉ resumed := fun hr => hx (ht.symm.trans (mem_waiters.mp (hresumed t hr)).2)
      have hne : s.waitAddress t ≠ address := fun heq => hx (ht.symm.trans heq)
      simp [ht, hr, hx]
    · simp [ht]

private theorem Resumes.leaves (h : s.Sound) (hresumed : ∀ t ∈ resumed, t ∈ s.waiters a address)
    (hr : Resumes s s' resumed) : Leaves s (s'.setWaitingThreads a (s.listAfter a address resumed)) a resumed := by
  have hlist : (s'.setWaitingThreads a (s.listAfter a address resumed)).waitingThreads a =
      s.listAfter a address resumed := Function.update_self _ _ _
  have hsame : s'.waitingThreads = s.waitingThreads := by rw [hr.frame]
  constructor
  · exact fun t ht => (mem_waiters.mp (hresumed t ht)).1
  · intro t
    rw [hlist]
    exact mem_listAfter hresumed
  · rw [hlist]
    exact nodup_listAfter (h.nodup a)
  · intro x
    rw [hlist]
    exact filter_listAfter hresumed x
  · intro b hb
    show Function.update s'.waitingThreads a _ b = _
    rw [Function.update_of_ne hb, hsame]
  · exact hr.status
  · exact hr.callback
  · exact hr.readied
  · rw [hr.frame]
    rfl

private theorem filter_notMem_singleton {l : List ThreadId} (hnodup : l.Nodup) : l.filter (· ∉ [t]) = l.erase t := by
  rw [hnodup.erase_eq_filter]
  apply List.filter_congr
  intro u _
  by_cases hu : u = t <;> simp [hu]

theorem resumeAllThreads_leaves (h : s.Sound) (a : ArbiterId) (address : Nat) :
    ∃ s', s.resumeAllThreads a address = .ok ((s.waiters a address).length, s') ∧
      Leaves s s' a (s.waiters a address) := by
  have hnodup : (s.waiters a address).Nodup := (h.nodup a).filter _
  obtain ⟨s', hs', hr⟩ := resumeAll_resumes hnodup fun t ht => h.status a t (mem_waiters.mp ht).1
  have hnil : (s.waiters a address).filter (· ∉ s.waiters a address) = [] := by
    rw [List.filter_eq_nil_iff]
    intro t ht
    simp [ht]
  have hleaves := hr.leaves h fun t ht => ht
  unfold listAfter at hleaves
  rw [hnil, List.append_nil] at hleaves
  refine ⟨_, ?_, hleaves⟩
  unfold resumeAllThreads
  rw [partitionThreads_ok h, ok_bind]
  dsimp only
  rw [hs']
  rfl

private theorem precedes_of_argmin (h : s.Sound) (ht : t ∈ (s.waiters a address).argmin s.currentPriority)
    (hu : u ∈ s.waiters a address) (hne : u ≠ t) : s.Precedes t u := by
  obtain ⟨hmem, hle, hfirst⟩ := List.mem_argmin_iff.mp ht
  rcases Nat.lt_or_eq_of_le (hle u hu) with hlt | heq
  · exact .inl hlt
  · refine .inr ⟨heq, ?_⟩
    have hindex := hfirst u hu heq.ge
    have hlt : (s.waiters a address).idxOf t < (s.waiters a address).idxOf u := by
      refine Nat.lt_of_le_of_ne hindex fun hsame => hne ?_
      exact ((List.idxOf_inj hmem).mp hsame).symm
    have hbefore := List.pairwise_iff_getElem.mp (h.order a address) _ _ (List.idxOf_lt_length_of_mem hmem)
      (List.idxOf_lt_length_of_mem hu) hlt
    rwa [List.getElem_idxOf, List.getElem_idxOf] at hbefore

private theorem resumeHighestPriorityThread_leaves (h : s.Sound) (hwaiters : s.waiters a address ≠ []) :
    ∃ t s', s.resumeHighestPriorityThread a address = .ok (true, s') ∧ Leaves s s' a [t] ∧
      t ∈ s.waiters a address ∧ ∀ u ∈ s.waiters a address, u ≠ t → s.Precedes t u := by
  obtain ⟨t, ht⟩ : ∃ t, (s.waiters a address).argmin s.currentPriority = some t := by
    rw [← Option.isSome_iff_exists, Option.isSome_iff_ne_none]
    exact fun hnone => hwaiters (List.argmin_eq_none.mp hnone)
  have hmem : t ∈ s.waiters a address := List.argmin_mem ht
  have hnodup : (s.waiters a address).Nodup := (h.nodup a).filter _
  obtain ⟨s', hs', hr⟩ := resumeFromWait_resumes (h.status a t (mem_waiters.mp hmem).1)
  have hresumed : ∀ u ∈ [t], u ∈ s.waiters a address := by
    intro u hu
    rwa [List.mem_singleton.mp hu]
  have hleaves := hr.leaves h hresumed
  refine ⟨t, _, ?_, hleaves, hmem, fun u hu hne => precedes_of_argmin h ht hu hne⟩
  unfold resumeHighestPriorityThread
  rw [partitionThreads_ok h, ok_bind]
  dsimp only
  rw [ht]
  dsimp only
  rw [hs', ← filter_notMem_singleton hnodup]
  rfl

private theorem resumeHighestPriorityThread_none (h : s.Sound) (hwaiters : s.waiters a address = []) :
    s.resumeHighestPriorityThread a address = .ok (false, s) := by
  have hothers : (s.waitingThreads a).filter (s.waitAddress · ≠ address) = s.waitingThreads a := by
    rw [List.filter_eq_self]
    intro t ht
    rw [decide_eq_true_iff]
    intro heq
    have hmem := mem_waiters.mpr ⟨ht, heq⟩
    rw [hwaiters] at hmem
    cases hmem
  have hsame : s.setWaitingThreads a (s.waitingThreads a) = s := by
    unfold setWaitingThreads
    rw [Function.update_eq_self]
  unfold resumeHighestPriorityThread
  rw [partitionThreads_ok h, ok_bind, hwaiters, hothers]
  dsimp only
  rw [List.append_nil, hsame]
  rfl

private theorem Leaves.waiters (hl : Leaves s s' a resumed) :
    s'.waiters a address = (s.waiters a address).filter (· ∉ resumed) := by
  unfold ArbiterKernel.waiters
  rw [hl.waitAddress, hl.order]

private theorem Leaves.precedes (hl : Leaves s s' a resumed) : s'.Precedes = s.Precedes := by
  unfold Precedes
  rw [hl.currentPriority, hl.waitingSince]

theorem resumeThreads_signals (h : s.Sound) (a : ArbiterId) (address n : Nat) :
    ∃ s' resumed, resumeThreads a address n s = .ok (resumed.length, s') ∧ Signals s s' a address n resumed := by
  induction n generalizing s with
  | zero =>
    refine ⟨s, [], rfl, Leaves.refl (h.nodup a), ?_, ?_, List.Pairwise.nil, ?_⟩
    · intro t ht
      cases ht
    · simp
    · intro t ht
      cases ht
  | succ n ih =>
    unfold resumeThreads
    by_cases hwaiters : s.waiters a address = []
    · obtain ⟨s', resumed, hs', hsig⟩ := ih h
      have hlength := hsig.length
      rw [hwaiters, List.length_nil, Nat.min_zero] at hlength
      rw [resumeHighestPriorityThread_none h hwaiters, ok_bind]
      dsimp only
      rw [hs', ok_bind]
      refine ⟨s', resumed, by simp; rfl, hsig.toLeaves, hsig.sameAddress, ?_, hsig.sorted, hsig.best⟩
      rw [hwaiters, List.length_nil, Nat.min_zero, hlength]
    · obtain ⟨t, s₁, hs₁, hl, ht, hbest⟩ := resumeHighestPriorityThread_leaves h hwaiters
      obtain ⟨s', resumed, hs', hsig⟩ := ih (h.leaves hl)
      have hrest : ∀ u, u ∈ s₁.waiters a address ↔ u ∈ s.waiters a address ∧ u ≠ t := by
        intro u
        rw [hl.waiters, List.mem_filter, decide_eq_true_iff, List.mem_singleton]
      have hresumed : ∀ u ∈ resumed, u ∈ s₁.waiters a address := by
        intro u hu
        rw [mem_waiters]
        exact ⟨hsig.subset u hu, hsig.sameAddress u hu⟩
      have hcount : (s.waiters a address).length = (s₁.waiters a address).length + 1 := by
        have hpos := List.length_pos_of_mem ht
        rw [hl.waiters, filter_notMem_singleton (waiters_nodup h), List.length_erase_of_mem ht]
        omega
      rw [hs₁, ok_bind]
      dsimp only
      rw [hs', ok_bind]
      refine ⟨s', t :: resumed, ?_, hl.trans hsig.toLeaves, ?_, ?_, ?_, ?_⟩
      · rw [List.length_cons, Nat.add_comm]
        rfl
      · intro u hu
        rcases List.mem_cons.mp hu with rfl | hu
        · exact (mem_waiters.mp ht).2
        · exact (mem_waiters.mp ((hrest u).mp (hresumed u hu)).1).2
      · rw [List.length_cons, hsig.length, hcount]
        omega
      · rw [List.pairwise_cons, ← hl.precedes]
        refine ⟨fun u hu => ?_, hsig.sorted⟩
        rw [hl.precedes]
        exact hbest u ((hrest u).mp (hresumed u hu)).1 ((hrest u).mp (hresumed u hu)).2
      · intro v hv u hu hr
        rw [List.mem_cons, not_or] at hr
        rcases List.mem_cons.mp hv with rfl | hv
        · exact hbest u hu hr.1
        · rw [← hl.precedes]
          exact hsig.best v hv u ((hrest u).mpr ⟨hu, hr.1⟩) hr.2

end SweepDSEmu.ArbiterKernel
