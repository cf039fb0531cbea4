import SweepDSEmu.Kernel.ArbiterSignals

/-!
# Runs of address arbiters

The invariant of the arbiters is kept by every operation that stops no thread that waits for an address; `Stop` leaves
such a thread in its list.
-/

namespace SweepDSEmu

open Function

namespace ArbiterKernel

variable {s s' : ArbiterKernel} {a b : ArbiterId} {t u : ThreadId} {address : Nat}

private theorem Sound.frame (h : s.Sound) (hframe : s' = { s with
    currentPriority := s'.currentPriority
    ownerProcess := s'.ownerProcess
    threadList := s'.threadList
    currentThread := s'.currentThread
    memory := s'.memory
    addedTicks := s'.addedTicks
    readied := s'.readied }) : s'.Sound := by
  rw [hframe]
  exact ⟨⟨h.nodup, h.status, h.waits⟩, h.scheduled, h.running, h.callback, h.fresh, h.since, h.order⟩

private theorem update_status {status : ThreadStatus} (u : ThreadId) :
    (s.setStatus t status).status u = if u = t then status else s.status u := update_apply ..

private theorem update_scheduled {scheduled : Bool} (u : ThreadId) :
    (s.setWakeupScheduled t scheduled).wakeupScheduled u = if u = t then scheduled else s.wakeupScheduled u :=
  update_apply ..

private theorem Sound.setStatus (h : s.Sound) (t : ThreadId) (status : ThreadStatus) (hold : s.status t ≠ .waitArb)
    (hnew : status ≠ .waitArb) (hrunning : status = .running → s.wakeupScheduled t = false)
    (hcallback : status = .running ∨ status = .ready → s.wakeupCallback t = none)
    (hfresh : s.nextThreadId ≤ t → status = .dead) : (s.setStatus t status).Sound := by
  have hwaits : ∀ u, (s.setStatus t status).status u = .waitArb ↔ s.status u = .waitArb := by
    intro u
    rw [update_status]
    split
    · rename_i hu
      subst hu
      exact ⟨fun h => absurd h hnew, fun h => absurd h hold⟩
    · exact Iff.rfl
  constructor
  · exact ⟨h.nodup, fun a u hu => (hwaits u).mpr (h.status a u hu), fun u hu => h.waits u ((hwaits u).mp hu)⟩
  · exact fun u hu => h.scheduled u ((hwaits u).mp hu)
  · intro u hu
    rw [update_status] at hu
    split at hu
    · rename_i heq
      subst heq
      exact hrunning hu
    · exact h.running u hu
  · intro u hu
    rw [update_status] at hu
    split at hu
    · rename_i heq
      subst heq
      exact hcallback hu
    · exact h.callback u hu
  · intro u hu
    rw [update_status]
    split
    · rename_i heq
      subst heq
      exact ⟨hfresh hu, (h.fresh u hu).2⟩
    · exact h.fresh u hu
  · exact h.since
  · exact h.order

private theorem Sound.unschedule (h : s.Sound) (t : ThreadId) : (s.setWakeupScheduled t false).Sound := by
  constructor
  · exact ⟨h.nodup, h.status, h.waits⟩
  · intro u hu hscheduled
    rw [update_scheduled] at hscheduled
    split at hscheduled
    · cases hscheduled
    · exact h.scheduled u hu hscheduled
  · intro u hu
    rw [update_scheduled]
    split
    · rfl
    · exact h.running u hu
  · exact h.callback
  · exact h.fresh
  · exact h.since
  · exact h.order

private theorem Sound.wakeAfterDelay (h : s.Sound) (ht : s.status t = .waitSleep) (nanoseconds : Int) :
    (s.wakeAfterDelay t nanoseconds).Sound := by
  unfold ArbiterKernel.wakeAfterDelay
  split
  · exact h
  · constructor
    · exact ⟨h.nodup, h.status, h.waits⟩
    · intro u hu hscheduled
      rw [update_scheduled] at hscheduled
      split at hscheduled
      · rename_i heq
        rw [heq] at hu
        exact absurd (ht.symm.trans hu) (by decide)
      · exact h.scheduled u hu hscheduled
    · intro u hu
      rw [update_scheduled]
      split
      · rename_i heq
        rw [heq] at hu
        exact absurd (ht.symm.trans hu) (by decide)
      · exact h.running u hu
    · exact h.callback
    · exact h.fresh
    · exact h.since
    · exact h.order

private theorem Sound.created (h : s.Sound) (ht : s.status t ≠ .dead) : ¬ s.nextThreadId ≤ t :=
  fun hle => ht (h.fresh t hle).1

private theorem createThread_sound (h : s.Sound) (core : Nat) (process : ProcessId) (priority : Nat) :
    (s.createThread core process priority).Sound := by
  obtain ⟨hdead, hnone⟩ := h.fresh s.nextThreadId le_rfl
  have hnext : Sound { s with nextThreadId := s.nextThreadId + 1 } :=
    ⟨⟨h.nodup, h.status, h.waits⟩, h.scheduled, h.running, h.callback,
      fun t ht => h.fresh t (Nat.le_of_succ_le ht), h.since, h.order⟩
  have hready := hnext.setStatus s.nextThreadId .ready
    (by show s.status s.nextThreadId ≠ _; rw [hdead]; decide) (by decide) (fun h => by cases h) (fun _ => hnone)
    (fun hle => absurd hle (Nat.not_succ_le_self _))
  exact hready.frame rfl

private theorem leaveContext_sound (h : s.Sound) (core : Nat) : (s.leaveContext core).Sound := by
  unfold leaveContext
  split
  · exact h
  · rename_i t _
    split
    · rename_i hrunning
      have hcreated := h.created (t := t) (by rw [hrunning]; decide)
      exact h.setStatus t .ready (by rw [hrunning]; decide) (by decide) (fun h => by cases h)
        (fun _ => h.callback t (.inl hrunning)) (fun hle => absurd hle hcreated)
    · exact h

private theorem switchContext_sound (h : s.Sound) (core : Nat) (newThread : Option ThreadId) :
    (s.switchContext core newThread).Sound := by
  have hleft := leaveContext_sound h core
  unfold switchContext
  generalize s.leaveContext core = s₁ at hleft
  dsimp only
  split
  · exact hleft.frame rfl
  · rename_i t
    split
    · exact hleft
    · rename_i hstatus
      have hstatus : s₁.status t = .running ∨ s₁.status t = .ready := by
        by_contra hneither
        exact hstatus (not_or.mp hneither)
      have hnot : s₁.status t ≠ .waitArb ∧ s₁.status t ≠ .dead := by
        rcases hstatus with hs | hs <;> rw [hs] <;> decide
      have hrunning := (hleft.unschedule t).setStatus t .running hnot.1 (by decide)
        (fun _ => update_self _ _ _) (fun _ => hleft.callback t hstatus)
        (fun hle => absurd hle (hleft.created hnot.2))
      exact hrunning.frame rfl

private theorem sleepThread_sound (h : s.Sound) (ht : s.status t = .running) (nanoseconds : Int) :
    (s.sleepThread t nanoseconds).Sound := by
  have hcreated := h.created (t := t) (by rw [ht]; decide)
  refine Sound.wakeAfterDelay ?_ (update_self _ _ _) nanoseconds
  exact h.setStatus t .waitSleep (by rw [ht]; decide) (by decide) (fun h => by cases h)
    (fun h => by rcases h with h | h <;> cases h) (fun hle => absurd hle hcreated)

private theorem stop_sound (h : s.Sound) (ht : s.status t ≠ .waitArb) : (s.stop t).Sound :=
  (h.unschedule t).setStatus t .dead ht (by decide) (fun h => by cases h)
    (fun h => by rcases h with h | h <;> cases h) fun _ => rfl

private theorem stopAll (l : List ThreadId) (s : ArbiterKernel) :
    (l.foldl stop s).waitingThreads = s.waitingThreads ∧ (l.foldl stop s).currentThread = s.currentThread ∧
      (l.foldl stop s).ownerProcess = s.ownerProcess ∧
      (∀ t, (l.foldl stop s).status t = if t ∈ l then .dead else s.status t) ∧
      (s.Sound → (∀ t ∈ l, s.status t ≠ .waitArb) → (l.foldl stop s).Sound) := by
  induction l generalizing s with
  | nil => exact ⟨rfl, rfl, rfl, fun _ => rfl, fun h _ => h⟩
  | cons t l ih =>
    obtain ⟨hwaiting, hcurrent, howner, hstatus, hsound⟩ := ih (s.stop t)
    have hstop : ∀ u, (s.stop t).status u = if u = t then .dead else s.status u := fun u => update_status u
    rw [List.foldl_cons]
    refine ⟨hwaiting, hcurrent, howner, ?_, ?_⟩
    · intro u
      rw [hstatus, hstop]
      split_ifs <;> simp_all
    · intro h hl
      refine hsound (stop_sound h (hl t List.mem_cons_self)) ?_
      intro u hu
      rw [hstop]
      split
      · decide
      · exact hl u (List.mem_cons_of_mem _ hu)

private theorem not_waiting_of_dead (h : s.Sound) (ht : s.status t = .waitArb)
    (hlists : s'.waitingThreads = s.waitingThreads) (hdead : s'.status t = .dead) : ¬ s'.Waiting := by
  intro h'
  obtain ⟨a, ha, -⟩ := h.waits t ht
  have hwait := h'.status a t (by rw [hlists]; exact ha)
  rw [hdead] at hwait
  cases hwait

private theorem exitCurrentThread_eq (h : s.currentThread b = some t) : s.exitCurrentThread b =
    { s.stop t with threadList := update s.threadList b ((s.threadList b).filter (· ≠ t)) } := by
  unfold exitCurrentThread
  rw [h]

private theorem exitCurrentThread_sound (h : s.Sound) {core : Nat}
    (ht : ∀ t, s.currentThread core = some t → s.status t ≠ .waitArb) : (s.exitCurrentThread core).Sound := by
  cases hcurrent : s.currentThread core with
  | none =>
    unfold exitCurrentThread
    rw [hcurrent]
    exact h
  | some t =>
    rw [exitCurrentThread_eq hcurrent]
    exact (stop_sound h (ht t hcurrent)).frame rfl

def threadsOf (s : ArbiterKernel) (core : Nat) (process : ProcessId) (t : ThreadId) : Prop :=
  (t ∈ s.threadList core ∨ s.currentThread core = some t) ∧ s.ownerProcess t = process

private theorem terminateProcessThreads_cases (s : ArbiterKernel) (core : Nat) (process : ProcessId) :
    (s.terminateProcessThreads core process).waitingThreads = s.waitingThreads ∧
      (∀ t, s.threadsOf core process t → (s.terminateProcessThreads core process).status t = .dead) ∧
      (s.Sound → (∀ t, s.threadsOf core process t → s.status t ≠ .waitArb) →
        (s.terminateProcessThreads core process).Sound) := by
  obtain ⟨hwaiting, hcurrent, howner, hstatus, hsound⟩ := stopAll (s.terminated core process) s
  have hterminated : ∀ t, t ∈ s.terminated core process ↔
      t ∈ s.threadList core ∧ s.currentThread core ≠ some t ∧ s.ownerProcess t = process := by
    intro t
    unfold terminated
    rw [List.mem_filter, decide_eq_true_iff]
  have hfirst : s.Sound → (∀ t, s.threadsOf core process t → s.status t ≠ .waitArb) →
      ((s.terminated core process).foldl stop s).Sound := by
    intro h hspare
    refine hsound h fun t ht => ?_
    obtain ⟨hlist, -, hp⟩ := (hterminated t).mp ht
    exact hspare t ⟨.inl hlist, hp⟩
  unfold terminateProcessThreads
  dsimp only
  generalize (s.terminated core process).foldl stop s = s₁ at hwaiting hcurrent howner hstatus hfirst
  have hothers : ∀ t, s.threadsOf core process t → s.currentThread core ≠ some t → s₁.status t = .dead := by
    rintro t ⟨hlist, hp⟩ hne
    rw [hstatus, if_pos ((hterminated t).mpr ⟨hlist.resolve_right hne, hne, hp⟩)]
  rw [hcurrent, howner]
  generalize hs₂ : ({ s₁ with threadList := _, currentThread := _, ownerProcess := _ } : ArbiterKernel) = s₂
  have hwaiting₂ : s₂.waitingThreads = s.waitingThreads := by rw [← hs₂, ← hwaiting]
  have hcurrent₂ : s₂.currentThread = s.currentThread := by rw [← hs₂]
  have howner₂ : s₂.ownerProcess = s.ownerProcess := by rw [← hs₂]
  have hstatus₂ : s₂.status = s₁.status := by rw [← hs₂]
  have hsound₂ : s.Sound → (∀ t, s.threadsOf core process t → s.status t ≠ .waitArb) → s₂.Sound :=
    fun h hspare => (hfirst h hspare).frame (by rw [← hs₂])
  cases hc : s.currentThread core with
  | none =>
    refine ⟨hwaiting₂, ?_, hsound₂⟩
    intro t ht
    rw [hstatus₂]
    exact hothers t ht (by rw [hc]; simp)
  | some c =>
    dsimp only
    split
    · rename_i hp
      have hexit := exitCurrentThread_eq (s := s₂) (b := core) (t := c) (by rw [hcurrent₂, hc])
      refine ⟨by rw [hexit]; exact hwaiting₂, ?_, ?_⟩
      · intro t ht
        rw [hexit]
        show (s₂.stop c).status t = .dead
        unfold stop
        rw [update_status]
        split
        · rfl
        · rename_i hne
          show s₂.status t = .dead
          rw [hstatus₂]
          refine hothers t ht ?_
          rw [hc]
          rintro ⟨rfl⟩
          exact hne rfl
      · intro h hspare
        refine exitCurrentThread_sound (hsound₂ h hspare) ?_
        intro t ht
        rw [hcurrent₂, hc] at ht
        cases ht
        rw [hstatus₂, hstatus]
        split
        · decide
        · exact hspare c ⟨.inr hc, hp⟩
    · rename_i hp
      refine ⟨hwaiting₂, ?_, hsound₂⟩
      intro t ht
      rw [hstatus₂]
      refine hothers t ht ?_
      rw [hc]
      rintro ⟨rfl⟩
      exact hp ht.2

private theorem waitThread_sound (h : s.Sound) (ht : s.status t = .running) (a : ArbiterId) (address : Nat)
    (memory : Nat → Int) (callback : Option ArbiterId) (scheduled : Bool)
    (hscheduled : scheduled = true → callback = some a) :
    (waitThread { s with
      memory := memory
      wakeupCallback := update s.wakeupCallback t callback
      wakeupScheduled := update s.wakeupScheduled t scheduled } a t address).Sound := by
  have hnew : ∀ b, t ∉ s.waitingThreads b := by
    intro b hb
    have hwait := h.status b t hb
    rw [ht] at hwait
    cases hwait
  generalize hs' : waitThread _ a t address = s'
  have hlists : ∀ b u, u ∈ s'.waitingThreads b ↔ u ∈ s.waitingThreads b ∨ b = a ∧ u = t := by
    intro b u
    rw [← hs']
    show u ∈ update s.waitingThreads a (s.waitingThreads a ++ [t]) b ↔ _
    by_cases hb : b = a
    · subst hb
      simp
    · simp [hb]
  have hlist : s'.waitingThreads a = s.waitingThreads a ++ [t] := by
    rw [← hs']
    exact update_self _ _ _
  have hother : ∀ b, b ≠ a → s'.waitingThreads b = s.waitingThreads b := by
    intro b hb
    rw [← hs']
    exact update_of_ne hb _ _
  have hstatus : ∀ u, s'.status u = if u = t then .waitArb else s.status u := by
    intro u
    rw [← hs']
    exact update_apply ..
  have hcallback : ∀ u, s'.wakeupCallback u = if u = t then callback else s.wakeupCallback u := by
    intro u
    rw [← hs']
    exact update_apply ..
  have hevent : ∀ u, s'.wakeupScheduled u = if u = t then scheduled else s.wakeupScheduled u := by
    intro u
    rw [← hs']
    exact update_apply ..
  have haddress : ∀ u, u ≠ t → s'.waitAddress u = s.waitAddress u := by
    intro u hu
    rw [← hs']
    exact update_of_ne hu _ _
  have hsince : ∀ u, s'.waitingSince u = if u = t then s.clock else s.waitingSince u := by
    intro u
    rw [← hs']
    exact update_apply ..
  have hclock : s'.clock = s.clock + 1 := by rw [← hs']; rfl
  have hnext : s'.nextThreadId = s.nextThreadId := by rw [← hs']; rfl
  have hne : ∀ {b u}, u ∈ s.waitingThreads b → u ≠ t := by
    rintro b u hu rfl
    exact hnew b hu
  constructor
  · constructor
    · intro b
      by_cases hb : b = a
      · subst hb
        rw [hlist]
        refine List.nodup_append.mpr ⟨h.nodup b, List.nodup_singleton t, ?_⟩
        intro u hu v hv
        rw [List.mem_singleton.mp hv]
        exact hne hu
      · rw [hother b hb]
        exact h.nodup b
    · intro b u hu
      rw [hstatus]
      rcases (hlists b u).mp hu with hu | ⟨-, rfl⟩
      · rw [if_neg (hne hu)]
        exact h.status b u hu
      · rw [if_pos rfl]
    · intro u hu
      rw [hstatus] at hu
      by_cases heq : u = t
      · subst heq
        refine ⟨a, (hlists a u).mpr (.inr ⟨rfl, rfl⟩), ?_⟩
        intro b hb
        rcases (hlists b u).mp hb with hb | ⟨hb, -⟩
        · exact absurd hb (hnew b)
        · exact hb
      · rw [if_neg heq] at hu
        obtain ⟨b, hb, hunique⟩ := h.waits u hu
        refine ⟨b, (hlists b u).mpr (.inl hb), ?_⟩
        intro c hc
        rcases (hlists c u).mp hc with hc | ⟨-, hc⟩
        · exact hunique c hc
        · exact absurd hc heq
  · intro u hu hscheduled'
    rw [hevent] at hscheduled'
    rw [hcallback]
    by_cases heq : u = t
    · subst heq
      rw [if_pos rfl] at hscheduled' ⊢
      exact ⟨a, hscheduled hscheduled', (hlists a u).mpr (.inr ⟨rfl, rfl⟩)⟩
    · rw [hstatus, if_neg heq] at hu
      rw [if_neg heq] at hscheduled' ⊢
      obtain ⟨b, hb, hmem⟩ := h.scheduled u hu hscheduled'
      exact ⟨b, hb, (hlists b u).mpr (.inl hmem)⟩
  · intro u hu
    rw [hstatus] at hu
    rw [hevent]
    split at hu
    · cases hu
    · rename_i heq
      rw [if_neg heq]
      exact h.running u hu
  · intro u hu
    rw [hstatus] at hu
    rw [hcallback]
    split at hu
    · rcases hu with hu | hu <;> cases hu
    · rename_i heq
      rw [if_neg heq]
      exact h.callback u hu
  · intro u hu
    rw [hnext] at hu
    have heq : u ≠ t := by
      rintro rfl
      exact h.created (by rw [ht]; decide) hu
    rw [hstatus, hcallback, if_neg heq, if_neg heq]
    exact h.fresh u hu
  · intro b u hu
    rw [hsince, hclock]
    rcases (hlists b u).mp hu with hu | ⟨-, rfl⟩
    · rw [if_neg (hne hu)]
      exact Nat.lt_succ_of_lt (h.since b u hu)
    · rw [if_pos rfl]
      exact Nat.lt_succ_self _
  · intro b x
    have hold : ((s.waitingThreads b).filter (s'.waitAddress · = x)).Pairwise
        (s'.waitingSince · < s'.waitingSince ·) := by
      have hsame : (s.waitingThreads b).filter (s'.waitAddress · = x) =
          (s.waitingThreads b).filter (s.waitAddress · = x) := by
        apply List.filter_congr
        intro u hu
        rw [haddress u (hne hu)]
      rw [hsame]
      refine (h.order b x).imp_of_mem ?_
      intro u v hu hv huv
      rw [hsince, hsince, if_neg (hne (List.mem_filter.mp hu).1), if_neg (hne (List.mem_filter.mp hv).1)]
      exact huv
    by_cases hb : b = a
    · subst hb
      rw [hlist, List.filter_append]
      refine List.pairwise_append.mpr ⟨hold, (List.pairwise_singleton _ t).filter _, ?_⟩
      intro u hu v hv
      have hu := (List.mem_filter.mp hu).1
      rw [List.mem_singleton.mp (List.mem_filter.mp hv).1, hsince, hsince, if_neg (hne hu), if_pos rfl]
      exact h.since b u hu
    · rw [hother b hb]
      exact hold

private theorem resumeFromWait_sound (h : s.Sound) (ht : s.status t ≠ .waitArb) :
    ∃ s', s.resumeFromWait t = .ok s' ∧ s'.Sound := by
  have hready : s.status t ≠ .dead →
      Sound { (s.setWakeupCallback t none).setStatus t .ready with readied := s.readied ++ [t] } := by
    intro hdead
    have hcallback : ∀ u, (s.setWakeupCallback t none).wakeupCallback u = if u = t then none else s.wakeupCallback u :=
      fun u => update_apply ..
    have hcleared : (s.setWakeupCallback t none).Sound := by
      constructor
      · exact ⟨h.nodup, h.status, h.waits⟩
      · intro u hu hscheduled
        have hne : u ≠ t := by
          rintro rfl
          exact ht hu
        rw [hcallback, if_neg hne]
        exact h.scheduled u hu hscheduled
      · exact h.running
      · intro u hu
        rw [hcallback]
        split
        · rfl
        · exact h.callback u hu
      · intro u hu
        rw [hcallback]
        split
        · exact ⟨(h.fresh u hu).1, rfl⟩
        · exact h.fresh u hu
      · exact h.since
      · exact h.order
    have hset := hcleared.setStatus t .ready ht (by decide) (fun h => by cases h)
      (fun _ => update_self _ _ _) (fun hle => absurd hle (h.created hdead))
    exact hset.frame rfl
  unfold resumeFromWait
  cases hstatus : s.status t with
  | waitArb => exact absurd hstatus ht
  | ready =>
    rw [if_pos (h.callback t (.inr hstatus))]
    exact ⟨s, rfl, h⟩
  | running => exact ⟨s, rfl, h⟩
  | dead => exact ⟨s, rfl, h⟩
  | _ => exact ⟨_, rfl, hready (by rw [hstatus]; decide)⟩

private theorem wakeUp_leaves (h : s.Sound) (ha : t ∈ s.waitingThreads a) :
    ∃ s', (s.wakeUp a t).resumeFromWait t = .ok s' ∧ Leaves s s' a [t] := by
  obtain ⟨s', hs', hr⟩ := resumeFromWait_resumes (s := s.wakeUp a t) (t := t) (h.status a t ha)
  have hlists : s'.waitingThreads = update s.waitingThreads a ((s.waitingThreads a).filter (· ≠ t)) := by
    rw [hr.frame]
    rfl
  have hlist : s'.waitingThreads a = (s.waitingThreads a).filter (· ≠ t) := by
    rw [hlists]
    exact update_self _ _ _
  refine ⟨s', hs', ?_, ?_, ?_, ?_, ?_, hr.status, hr.callback, hr.readied, ?_⟩
  · intro u hu
    rwa [List.mem_singleton.mp hu]
  · intro u
    rw [hlist, List.mem_filter, decide_eq_true_iff, List.mem_singleton]
  · rw [hlist]
    exact (h.nodup a).filter _
  · intro x
    rw [hlist, List.filter_filter, List.filter_filter]
    apply List.filter_congr
    intro u _
    simp [Bool.and_comm]
  · intro b hb
    rw [hlists]
    exact update_of_ne hb _ _
  · rw [hr.frame]
    rfl

private theorem threadWakeupCallback_sound (h : s.Sound) (hscheduled : s.wakeupScheduled t = true) :
    ∃ s', s.threadWakeupCallback t = .ok s' ∧ s'.Sound := by
  have hs := h.unschedule t
  unfold threadWakeupCallback
  dsimp only
  generalize hs₁ : s.setWakeupScheduled t false = s₁ at hs
  have hstatus₁ : s₁.status = s.status := by rw [← hs₁]; rfl
  by_cases hstatus : s₁.status t = .waitArb
  · obtain ⟨a, hcallback, ha⟩ := h.scheduled t (by rw [← hstatus₁, hstatus]) hscheduled
    have hcallback₁ : s₁.wakeupCallback t = some a := by rw [← hs₁]; exact hcallback
    have ha₁ : t ∈ s₁.waitingThreads a := by rw [← hs₁]; exact ha
    obtain ⟨s', hs', hl⟩ := wakeUp_leaves hs ha₁
    rw [hstatus, hcallback₁]
    exact ⟨s', hs', hs.leaves hl⟩
  · split
    · rename_i hwait _
      exact absurd hwait hstatus
    · exact resumeFromWait_sound hs hstatus

theorem signal_leaves (h : s.Sound) (a : ArbiterId) (t : ThreadId) (address : Nat) (value : Int) :
    ∃ s₁ resumed ticks, s.signal a t address value = .ok { s₁ with addedTicks := ticks } ∧
      Leaves s s₁ a resumed ∧ (0 ≤ value → Signals s s₁ a address value.toNat resumed) := by
  unfold signal
  split
  · rename_i hneg
    obtain ⟨s₁, hs₁, hl⟩ := resumeAllThreads_leaves h a address
    rw [hs₁, ok_bind]
    dsimp only
    split
    · exact ⟨s₁, _, _, rfl, hl, fun hle => absurd hneg (not_lt.mpr hle)⟩
    · exact ⟨s₁, _, s₁.addedTicks, rfl, hl, fun hle => absurd hneg (not_lt.mpr hle)⟩
  · obtain ⟨s₁, resumed, hs₁, hsig⟩ := resumeThreads_signals h a address value.toNat
    rw [hs₁, ok_bind]
    dsimp only
    split
    · exact ⟨s₁, resumed, _, rfl, hsig.toLeaves, fun _ => hsig⟩
    · exact ⟨s₁, resumed, s₁.addedTicks, rfl, hsig.toLeaves, fun _ => hsig⟩

private theorem waitIfLessThan_sound (h : s.Sound) (ht : s.status t = .running) (value nanoseconds : Int)
    (decrement timeout : Bool) : (s.waitIfLessThan a t address value nanoseconds decrement timeout).Sound := by
  unfold waitIfLessThan
  dsimp only
  split
  · obtain ⟨memory, hmemory⟩ : ∃ memory, (if decrement = true then { s with
        memory := update s.memory address (toS32 (s.memory address - 1)) } else s) =
        { s with memory := memory } := by
      split
      · exact ⟨_, rfl⟩
      · exact ⟨s.memory, rfl⟩
    rw [hmemory]
    split
    · unfold ArbiterKernel.wakeAfterDelay
      split
      · have hwait := waitThread_sound h ht a address memory (some a) (s.wakeupScheduled t)
          (fun _ => rfl)
        rwa [update_eq_self] at hwait
      · exact waitThread_sound h ht a address memory (some a) true fun _ => rfl
    · have hwait := waitThread_sound h ht a address memory (s.wakeupCallback t)
        (s.wakeupScheduled t) (fun hevent => by rw [h.running t ht] at hevent; cases hevent)
      rwa [update_eq_self, update_eq_self] at hwait
  · exact h

private theorem arbitrateAddress_sound (h : s.Sound) (ht : s.status t = .running) (a : ArbiterId)
    (type : ArbitrationType) (address : Nat) (value nanoseconds : Int) :
    ∃ r s', s.arbitrateAddress a t type address value nanoseconds = .ok (r, s') ∧ s'.Sound := by
  cases type with
  | signal =>
    obtain ⟨s₁, resumed, ticks, hs₁, hl, -⟩ := signal_leaves h a t address value
    refine ⟨.success, { s₁ with addedTicks := ticks }, ?_, (h.leaves hl).frame rfl⟩
    unfold arbitrateAddress
    rw [hs₁]
    rfl
  | unknown => exact ⟨_, s, rfl, h⟩
  | _ => exact ⟨_, _, rfl, waitIfLessThan_sound h ht value nanoseconds _ _⟩

def Spares (s : ArbiterKernel) : Op → Prop
  | .stop t => s.status t ≠ .waitArb
  | .exitCurrentThread core => ∀ t, s.currentThread core = some t → s.status t ≠ .waitArb
  | .terminateProcessThreads core process => ∀ t, s.threadsOf core process t → s.status t ≠ .waitArb
  | _ => True

private theorem caller_running {core : Nat} (h : s.caller core = some t) : s.status t = .running := by
  exact of_decide_eq_true (Option.filter_eq_some_iff.mp h).2

/-- An operation that spares the threads that wait for an address keeps the invariant. -/
theorem exec_sound (h : s.Sound) {op : Op} (hspares : s.Spares op) : ∃ s', s.exec op = .ok s' ∧ s'.Sound := by
  cases op with
  | createThread core process priority => exact ⟨_, rfl, createThread_sound h core process priority⟩
  | switchContext core newThread => exact ⟨_, rfl, switchContext_sound h core newThread⟩
  | setPriority t priority => exact ⟨_, rfl, h.frame rfl⟩
  | sleepThread core nanoseconds =>
    unfold exec
    dsimp only
    cases hcaller : s.caller core with
    | none => exact ⟨s, rfl, h⟩
    | some t => exact ⟨_, rfl, sleepThread_sound h (caller_running hcaller) nanoseconds⟩
  | arbitrateAddress core a type address value nanoseconds =>
    unfold exec
    dsimp only
    cases hcaller : s.caller core with
    | none => exact ⟨s, rfl, h⟩
    | some t =>
      obtain ⟨r, s', hs', h'⟩ := arbitrateAddress_sound h (caller_running hcaller) a type address value nanoseconds
      dsimp only
      rw [hs']
      exact ⟨s', rfl, h'⟩
  | timeout t =>
    unfold exec
    dsimp only
    split
    · rename_i hscheduled
      exact threadWakeupCallback_sound h hscheduled
    · exact ⟨s, rfl, h⟩
  | stop t => exact ⟨_, rfl, stop_sound h hspares⟩
  | exitCurrentThread core => exact ⟨_, rfl, exitCurrentThread_sound h hspares⟩
  | terminateProcessThreads core process => exact ⟨_, rfl, (terminateProcessThreads_cases s core process).2.2 h hspares⟩

/-- After another operation a thread that is dead is still in a list. -/
theorem not_waiting_of_not_spares (h : s.Sound) {op : Op} (hspares : ¬ s.Spares op) (hs' : s.exec op = .ok s') :
    ¬ s'.Waiting := by
  cases op with
  | stop t =>
    cases hs'
    exact not_waiting_of_dead h (not_not.mp hspares) rfl (update_self _ _ _)
  | exitCurrentThread core =>
    cases hs'
    unfold Spares at hspares
    simp only [not_forall, not_not] at hspares
    obtain ⟨t, hcurrent, ht⟩ := hspares
    rw [exitCurrentThread_eq hcurrent]
    exact not_waiting_of_dead h ht rfl (update_self _ _ _)
  | terminateProcessThreads core process =>
    cases hs'
    unfold Spares at hspares
    simp only [not_forall, not_not] at hspares
    obtain ⟨t, hof, ht⟩ := hspares
    obtain ⟨hwaiting, hdead, -⟩ := terminateProcessThreads_cases s core process
    exact not_waiting_of_dead h ht hwaiting (hdead t hof)
  | _ => exact absurd trivial hspares

/-- No operation of the run stops a thread that waits for an address. -/
def SparesAll (s : ArbiterKernel) : List Op → Prop
  | [] => True
  | op :: ops => s.Spares op ∧ ∀ s', s.exec op = .ok s' → SparesAll s' ops

/-- Every state of the run exists, and its waiting lists agree with the statuses. -/
def AlwaysWaiting (s : ArbiterKernel) (ops : List Op) : Prop :=
  ∀ k, ∃ s', (ops.take k).foldlM exec s = .ok s' ∧ s'.Waiting

private theorem alwaysWaiting_cons {op : Op} {ops : List Op} : AlwaysWaiting s (op :: ops) ↔
    s.Waiting ∧ ∃ s', s.exec op = .ok s' ∧ AlwaysWaiting s' ops := by
  constructor
  · intro h
    obtain ⟨s₀, hs₀, h₀⟩ := h 0
    cases hs₀
    obtain ⟨s₁, hs₁, -⟩ := h 1
    obtain ⟨s', hs', -⟩ := ok_of_bind hs₁
    refine ⟨h₀, s', hs', fun k => ?_⟩
    obtain ⟨s₂, hs₂, h₂⟩ := h (k + 1)
    rw [List.take_succ_cons, List.foldlM_cons, hs', ok_bind] at hs₂
    exact ⟨s₂, hs₂, h₂⟩
  · rintro ⟨h, s', hs', hrest⟩ k
    cases k with
    | zero => exact ⟨s, rfl, h⟩
    | succ k =>
      rw [List.take_succ_cons, List.foldlM_cons, hs', ok_bind]
      exact hrest k

/-- From a sound state the waiting lists agree with the statuses all the time exactly when no thread that waits for an
address is stopped. -/
theorem alwaysWaiting_iff (h : s.Sound) (ops : List Op) : AlwaysWaiting s ops ↔ SparesAll s ops := by
  induction ops generalizing s with
  | nil =>
    refine ⟨fun _ => trivial, fun _ k => ⟨s, ?_, h.toWaiting⟩⟩
    rw [List.take_nil]
    rfl
  | cons op ops ih =>
    rw [alwaysWaiting_cons]
    constructor
    · rintro ⟨-, s', hs', hrest⟩
      have hspares : s.Spares op := by
        by_contra hspares
        obtain ⟨s₀, hs₀, h₀⟩ := hrest 0
        cases hs₀
        exact not_waiting_of_not_spares h hspares hs' h₀
      obtain ⟨s₁, hs₁, h₁⟩ := exec_sound h hspares
      refine ⟨hspares, fun s₂ hs₂ => ?_⟩
      rw [hs₁] at hs' hs₂
      cases hs'
      cases hs₂
      exact (ih h₁).mp hrest
    · rintro ⟨hspares, hrest⟩
      obtain ⟨s', hs', h'⟩ := exec_sound h hspares
      exact ⟨h.toWaiting, s', hs', (ih h').mpr (hrest s' hs')⟩

private theorem run_sound {ops : List Op} (h : s.Sound) (hspares : SparesAll s ops)
    (hrun : ops.foldlM exec s = .ok s') : s'.Sound := by
  induction ops generalizing s with
  | nil =>
    cases hrun
    exact h
  | cons op ops ih =>
    obtain ⟨s₁, hs₁, hrun⟩ := ok_of_bind hrun
    obtain ⟨s₂, hs₂, h₂⟩ := exec_sound h hspares.1
    rw [hs₁] at hs₂
    cases hs₂
    exact ih h₂ (hspares.2 s₁ hs₁) hrun

/-- In every run the waiting lists agree with the statuses exactly when no thread that waits for an address is stopped,
and then a signal resumes the best threads of its address. -/
theorem run_waiting_iff (ops : List Op) :
    (AlwaysWaiting {} ops ↔ SparesAll {} ops) ∧
      ∀ s, SparesAll {} ops → run ops = .ok s → ∀ a t address (value nanoseconds : Int), 0 ≤ value →
        ∃ s' resumed ticks, Signals s s' a address value.toNat resumed ∧
          s.arbitrateAddress a t .signal address value nanoseconds =
            .ok (.success, { s' with addedTicks := ticks }) := by
  refine ⟨alwaysWaiting_iff sound_init ops, ?_⟩
  intro s hspares hrun a t address value nanoseconds hvalue
  obtain ⟨s', resumed, ticks, hs', -, hsig⟩ := signal_leaves (run_sound sound_init hspares hrun) a t address value
  refine ⟨s', resumed, ticks, hsig hvalue, ?_⟩
  unfold arbitrateAddress
  dsimp only
  rw [hs']
  rfl

theorem run_waiting_iff_signal : ∃ s, run [.createThread 0 1 30, .createThread 0 2 30, .switchContext 0 (some 0),
      .arbitrateAddress 0 7 .waitIfLessThan 0x100 1 0, .switchContext 0 (some 1)] = .ok s ∧
    ∃ s' resumed, Signals s s' 7 0x100 2 resumed := by
  have hspares : SparesAll {} [.createThread 0 1 30, .createThread 0 2 30, .switchContext 0 (some 0),
      .arbitrateAddress 0 7 .waitIfLessThan 0x100 1 0, .switchContext 0 (some 1)] :=
    ⟨trivial, fun _ _ => ⟨trivial, fun _ _ => ⟨trivial, fun _ _ => ⟨trivial, fun _ _ =>
      ⟨trivial, fun _ _ => trivial⟩⟩⟩⟩⟩
  obtain ⟨s', resumed, ticks, hsig, -⟩ := (run_waiting_iff _).2 _ hspares rfl 7 1 0x100 2 0 (by decide)
  exact ⟨_, rfl, s', resumed, hsig⟩

/-- A thread that waits for an address and is terminated with its process stays in the list, and the next signal of the
arbiter aborts. -/
theorem terminated_thread_stays :
    (∃ s, run [.createThread 0 1 30, .createThread 0 2 30, .switchContext 0 (some 0),
      .arbitrateAddress 0 7 .waitIfLessThan 0x100 1 0, .switchContext 0 (some 1),
      .terminateProcessThreads 0 1] = .ok s ∧ 0 ∈ s.waitingThreads 7 ∧ s.status 0 = .dead) ∧
    run [.createThread 0 1 30, .createThread 0 2 30, .switchContext 0 (some 0),
      .arbitrateAddress 0 7 .waitIfLessThan 0x100 1 0, .switchContext 0 (some 1), .terminateProcessThreads 0 1,
      .arbitrateAddress 0 7 .signal 0x100 1 0] = .error .inconsistentArbiter :=
  ⟨⟨_, rfl, by decide, rfl⟩, rfl⟩

end ArbiterKernel

end SweepDSEmu
