import SweepDSEmu.Kernel.WaitObject

/-!
# Acquiring all objects of a list

`WaitSynchronizationN` with `wait_all`, and the turn of `WakeupAllWaitingThreads` for a thread that waits for all its
objects, test every object of the list first and acquire them one after the other then.  The same object may be listed more
than once.

* `Finds` says that every `Acquire` of the loop finds its object available.
* `Fits` says how often an object may be listed: acquiring it changes it, and what is left must do for the rest.
-/

namespace SweepDSEmu.WaitKernel

/-- Every `Acquire` of the loop finds that the thread need not wait. -/
def Finds (s : WaitKernel) (t : ThreadId) : List ObjectId → Prop
  | [] => True
  | o :: objects => s.shouldWait o t = false ∧ ∀ s', s.acquire o t = .ok s' → Finds s' t objects

/-- What the acquisition of a list of available objects should do: every `Acquire` finds its object available, and a
semaphore loses a unit for each time it is listed. -/
structure AcquiresAll (s : WaitKernel) (t : ThreadId) (objects : List ObjectId) (s' : WaitKernel) : Prop where
  finds : s.Finds t objects
  semaphores : ∀ o n m, s.object o = .semaphore n m → s'.object o = .semaphore (n - objects.count o) m

/-- An object may be listed so often: an event or a timer that is reset by the thread it wakes and a session with a client
once, a semaphore as often as it has units. -/
def Fits (s : WaitKernel) (o : ObjectId) (k : Nat) : Prop :=
  match s.object o with
  | .event _ .oneShot => k ≤ 1
  | .timer _ .oneShot => k ≤ 1
  | .semaphore availableCount _ => (k : Int) ≤ availableCount
  | .serverSession true _ _ => k ≤ 1
  | _ => True

section Acquire

variable {s s' : WaitKernel} {t : ThreadId} {o : ObjectId}

@[simp] private theorem object_setObject (s : WaitKernel) (o : ObjectId) (object : WaitObject) :
    (s.setObject o object).object o = object := Function.update_self ..

private theorem object_setObject_of_ne (s : WaitKernel) (object : WaitObject) {o' : ObjectId} (h : o' ≠ o) :
    (s.setObject o object).object o' = s.object o' := Function.update_of_ne h ..

/-- `Acquire` changes the object, and no other object and no status. -/
theorem acquire_frame (h : s.acquire o t = .ok s') :
    (∀ o', o' ≠ o → s'.object o' = s.object o') ∧ s'.status = s.status := by
  unfold acquire at h
  split at h
  · split at h
    · cases h
    · cases h
      split
      · exact ⟨fun o' ho' => object_setObject_of_ne s _ ho', rfl⟩
      · exact ⟨fun _ _ => rfl, rfl⟩
  · split at h
    · cases h
    · cases h
      split
      · exact ⟨fun o' ho' => object_setObject_of_ne s _ ho', rfl⟩
      · exact ⟨fun _ _ => rfl, rfl⟩
  · cases h
    split
    · exact ⟨fun _ _ => rfl, rfl⟩
    · exact ⟨fun o' ho' => object_setObject_of_ne s _ ho', rfl⟩
  · split at h
    · cases h
    · split at h
      · cases h
        exact ⟨fun o' ho' => object_setObject_of_ne s _ ho', rfl⟩
      · cases h
        exact ⟨fun o' ho' => object_setObject_of_ne s _ ho', rfl⟩
  · split at h
    · cases h
    · split at h
      · cases h
        exact ⟨fun _ _ => rfl, rfl⟩
      · split at h
        · cases h
        · cases h
          exact ⟨fun o' ho' => object_setObject_of_ne s _ ho', rfl⟩
  · split at h
    · cases h
    · cases h
      exact ⟨fun _ _ => rfl, rfl⟩
  · split at h
    · cases h
    · cases h
      exact ⟨fun _ _ => rfl, rfl⟩

private theorem shouldWait_of_ne (h : s.acquire o t = .ok s') {o' : ObjectId} (ho' : o' ≠ o) :
    s'.shouldWait o' t = s.shouldWait o' t := by
  obtain ⟨hobject, hstatus⟩ := acquire_frame h
  unfold shouldWait
  rw [hobject o' ho', hstatus]

private theorem fits_of_ne (h : s.acquire o t = .ok s') {o' : ObjectId} (ho' : o' ≠ o) (k : Nat) :
    s'.Fits o' k ↔ s.Fits o' k := by
  unfold Fits
  rw [(acquire_frame h).1 o' ho']

private theorem acquire_available (h : s.shouldWait o t = false) :
    ∃ s', s.acquire o t = .ok s' ∧ ∀ k, 1 ≤ k →
      ((s'.shouldWait o t = false ∧ s'.Fits o k) ↔ s.Fits o (k + 1)) := by
  have hsame : (∀ k, s.Fits o k) → ∀ k, 1 ≤ k → ((s.shouldWait o t = false ∧ s.Fits o k) ↔ s.Fits o (k + 1)) :=
    fun hfits k _ => iff_of_true ⟨h, hfits k⟩ (hfits (k + 1))
  have hwait := h
  unfold shouldWait at hwait
  unfold acquire
  cases hobject : s.object o with
  | event signaled resetType =>
    refine ⟨_, if_neg (by rw [h]; decide), ?_⟩
    cases resetType with
    | oneShot =>
      intro k hk
      simp [shouldWait, Fits, hobject]
      omega
    | sticky => exact hsame fun k => by simp [Fits, hobject]
    | pulse => exact hsame fun k => by simp [Fits, hobject]
  | timer signaled resetType =>
    refine ⟨_, if_neg (by rw [h]; decide), ?_⟩
    cases resetType with
    | oneShot =>
      intro k hk
      simp [shouldWait, Fits, hobject]
      omega
    | sticky => exact hsame fun k => by simp [Fits, hobject]
    | pulse => exact hsame fun k => by simp [Fits, hobject]
  | semaphore availableCount maxCount =>
    rw [hobject] at hwait
    have hpos : 0 < availableCount := by simpa using hwait
    refine ⟨_, rfl, fun k hk => ?_⟩
    rw [if_neg (by omega)]
    simp only [shouldWait, Fits, hobject, object_setObject, decide_eq_false_iff_not]
    omega
  | mutex lockCount priority holdingThread =>
    rw [hobject] at hwait
    dsimp only
    rw [if_neg (by rw [h]; decide)]
    by_cases hzero : lockCount = 0
    · rw [if_pos hzero]
      refine ⟨_, rfl, fun k _ => ?_⟩
      simp [shouldWait, Fits, hobject, updatePriority]
    · rw [if_neg hzero]
      refine ⟨_, rfl, fun k _ => ?_⟩
      have hheld : ((s.setObject o (.mutex (lockCount + 1) priority holdingThread)).shouldWait o t) = false := by
        simp only [shouldWait, object_setObject]
        simp at hwait ⊢
        intro hpos
        exact hwait (by omega)
      simp [hheld, Fits, hobject]
  | serverSession client pending currentlyHandling =>
    rw [hobject] at hwait
    dsimp only
    rw [if_neg (by rw [h]; decide)]
    cases client with
    | false =>
      refine ⟨_, rfl, ?_⟩
      exact hsame fun k => by simp [Fits, hobject]
    | true =>
      cases hlast : pending.getLast? with
      | none =>
        rw [List.getLast?_eq_none_iff] at hlast
        rw [hlast] at hwait
        cases hwait
      | some request =>
        refine ⟨_, rfl, fun k hk => ?_⟩
        simp [shouldWait, Fits, hobject]
        omega
  | serverPort pendingSessions =>
    refine ⟨_, if_neg (by rw [h]; decide), ?_⟩
    exact hsame fun k => by simp [Fits, hobject]
  | thread u =>
    refine ⟨_, if_neg (by rw [h]; decide), ?_⟩
    exact hsame fun k => by simp [Fits, hobject]

private theorem fits_one (h : s.shouldWait o t = false) : s.Fits o 1 := by
  unfold shouldWait at h
  unfold Fits
  split <;> simp_all
  omega

end Acquire

section AcquireAll

variable {s : WaitKernel} {t : ThreadId}

/-- The loop finds every object available when each of them may be listed as often as it is. -/
theorem finds_iff (objects : List ObjectId) : ∀ s : WaitKernel, s.Finds t objects ↔
    ∀ o ∈ objects, s.shouldWait o t = false ∧ s.Fits o (objects.count o) := by
  induction objects with
  | nil =>
    intro s
    exact iff_of_true trivial fun o ho => (List.not_mem_nil ho).elim
  | cons o objects ih =>
    intro s
    unfold Finds
    by_cases hwait : s.shouldWait o t = false
    · obtain ⟨s', hs', hself⟩ := acquire_available hwait
      have hfinds : (∀ s', s.acquire o t = .ok s' → Finds s' t objects) ↔ Finds s' t objects := by
        constructor
        · exact fun h => h s' hs'
        · intro h s'' hs''
          rw [← Except.ok.inj (hs'.symm.trans hs'')]
          exact h
      rw [hfinds, ih s']
      constructor
      · rintro ⟨-, hrest⟩ u hu
        by_cases huo : u = o
        · rw [huo, List.count_cons_self]
          refine ⟨hwait, ?_⟩
          by_cases hmem : o ∈ objects
          · exact (hself _ (List.count_pos_iff.mpr hmem)).1 (hrest o hmem)
          · rw [List.count_eq_zero.mpr hmem]
            exact fits_one hwait
        · have hmem := (List.mem_cons.mp hu).resolve_left huo
          obtain ⟨h1, h2⟩ := hrest u hmem
          rw [shouldWait_of_ne hs' huo] at h1
          rw [List.count_cons_of_ne (Ne.symm huo), ← fits_of_ne hs' huo]
          exact ⟨h1, h2⟩
      · intro hall
        refine ⟨hwait, fun u hu => ?_⟩
        obtain ⟨h1, h2⟩ := hall u (List.mem_cons_of_mem o hu)
        by_cases huo : u = o
        · rw [huo, List.count_cons_self] at h2
          rw [huo]
          exact (hself _ (List.count_pos_iff.mpr (huo ▸ hu))).2 h2
        · rw [List.count_cons_of_ne (Ne.symm huo)] at h2
          rw [shouldWait_of_ne hs' huo, fits_of_ne hs' huo]
          exact ⟨h1, h2⟩
    · constructor
      · exact fun h => absurd h.1 hwait
      · exact fun h => absurd (h o List.mem_cons_self).1 hwait

private theorem semaphore_acquire {s' : WaitKernel} {o o' : ObjectId} {n m : Int} (hwait : s.shouldWait o t = false)
    (h : s.acquire o t = .ok s') (hn : s.object o' = .semaphore n m) :
    s'.object o' = .semaphore (n - if o' = o then 1 else 0) m := by
  by_cases ho : o' = o
  · subst ho
    unfold shouldWait at hwait
    rw [hn] at hwait
    have hpos : 0 < n := by simpa using hwait
    unfold acquire at h
    rw [hn] at h
    dsimp only at h
    rw [if_neg (by omega)] at h
    cases h
    rw [if_pos rfl]
    exact object_setObject ..
  · rw [if_neg ho, (acquire_frame h).1 o' ho, hn, Int.sub_zero]

/-- The loop ends without a fault when it finds every object available. -/
theorem acquireAll_of_finds (objects : List ObjectId) : ∀ s : WaitKernel, s.Finds t objects →
    ∃ s', s.acquireAll t objects = .ok s' ∧
      ∀ o n m, s.object o = .semaphore n m → s'.object o = .semaphore (n - objects.count o) m := by
  induction objects with
  | nil =>
    intro s _
    refine ⟨s, rfl, fun o n m hn => ?_⟩
    rw [hn, List.count_nil]
    simp
  | cons o objects ih =>
    intro s hfinds
    obtain ⟨hwait, hrest⟩ := hfinds
    obtain ⟨s₁, hs₁, -⟩ := acquire_available hwait
    obtain ⟨s', hs', hsem⟩ := ih s₁ (hrest s₁ hs₁)
    refine ⟨s', ?_, fun u n m hn => ?_⟩
    · unfold acquireAll
      rw [List.foldlM_cons, hs₁]
      exact hs'
    · rw [hsem u _ m (semaphore_acquire hwait hs₁ hn), List.count_cons]
      congr 1
      by_cases hu : u = o
      · subst hu
        simp
        omega
      · simp [hu, Ne.symm hu]

theorem acquiresAll_iff {objects : List ObjectId} (havailable : ∀ o ∈ objects, s.shouldWait o t = false) :
    (∃ s', s.acquireAll t objects = .ok s' ∧ s.AcquiresAll t objects s') ↔
      ∀ o ∈ objects, s.Fits o (objects.count o) := by
  constructor
  · rintro ⟨s', -, h⟩ o ho
    exact ((finds_iff objects s).1 h.finds o ho).2
  · intro h
    have hfinds : s.Finds t objects := (finds_iff objects s).2 fun o ho => ⟨havailable o ho, h o ho⟩
    obtain ⟨s', hs', hsem⟩ := acquireAll_of_finds objects s hfinds
    exact ⟨s', hs', hfinds, hsem⟩

private theorem searchReady_available {o : ObjectId} (threads : List ThreadId) : ∀ candidate,
    (∀ u, candidate = some u → s.status u = .waitSynchAll → ∀ o ∈ s.waitObjects u, s.shouldWait o u = false) →
      s.searchReady o candidate threads = .ok (some t) → s.status t = .waitSynchAll →
        ∀ o ∈ s.waitObjects t, s.shouldWait o t = false := by
  induction threads with
  | nil =>
    intro candidate hcand hs hst
    exact hcand t (Except.ok.inj hs) hst
  | cons u threads ih =>
    intro candidate hcand hs hst
    unfold searchReady at hs
    split at hs
    · cases hs
    · split at hs
      · exact ih candidate hcand hs hst
      · split at hs
        · exact ih candidate hcand hs hst
        · split at hs
          · exact ih candidate hcand hs hst
          · rename_i hready
            refine ih (some u) ?_ hs hst
            intro v hv hall o' ho'
            obtain rfl := Option.some_inj.mp hv
            rw [not_and, List.any_eq_true] at hready
            by_contra hwait
            exact hready hall ⟨o', ho', by simpa using hwait⟩

/-- Whenever the test that all objects are available passes, in `WaitSynchronizationN` or in a turn of
`WakeupAllWaitingThreads`, every `Acquire` finds its object available and a semaphore loses a unit for each time it is
listed, if and only if no object is listed too often. -/
theorem acquires_available_iff (s : WaitKernel) :
    (∀ (handleTable : Nat → Option ObjectId) (t : ThreadId) (handles : List Nat) (nanoseconds : Int)
        (objects : List ObjectId), handles.mapM handleTable = some objects →
      (∀ o ∈ objects, s.shouldWait o t = false) →
      ((∃ s', s.waitSynchronizationAll handleTable t handles nanoseconds = .ok (.success, s') ∧
          s.AcquiresAll t objects s') ↔ ∀ o ∈ objects, s.Fits o (objects.count o))) ∧
    ∀ o t, s.getHighestPriorityReadyThread o = .ok (some t) → s.status t = .waitSynchAll →
      ((∃ s', s.acquireAll t (s.waitObjects t) = .ok s' ∧ s.AcquiresAll t (s.waitObjects t) s') ↔
        ∀ o ∈ s.waitObjects t, s.Fits o ((s.waitObjects t).count o)) := by
  constructor
  · intro handleTable t handles nanoseconds objects hobjects havailable
    rw [← acquiresAll_iff havailable]
    have hall : (objects.all fun o => !s.shouldWait o t) = true := by
      rw [List.all_eq_true]
      intro o ho
      rw [havailable o ho]
      rfl
    unfold waitSynchronizationAll waitAllObjects
    rw [hobjects]
    dsimp only
    rw [if_pos hall]
    cases hacq : s.acquireAll t objects with
    | error e =>
      constructor
      · rintro ⟨s', hs', -⟩
        cases hs'
      · rintro ⟨s', hs', -⟩
        cases hs'
    | ok s₁ =>
      constructor
      · rintro ⟨s', hs', h⟩
        cases hs'
        exact ⟨s₁, rfl, h⟩
      · rintro ⟨s', hs', h⟩
        cases hs'
        exact ⟨s₁, rfl, h⟩
  · intro o t hfound hst
    exact acquiresAll_iff (searchReady_available _ none (fun u hu => by cases hu) hfound hst)

/-- Object 0 is a signaled event that is reset by the thread it wakes, object 1 a semaphore with two units. -/
def sampleObjects : WaitKernel :=
  { object := fun o => if o = 0 then .event true .oneShot else .semaphore 2 4, status := fun _ => .running }

/-- The handles 7 and 8 are of the event, the others of the semaphore. -/
def sampleHandles (handle : Nat) : Option ObjectId := if handle = 7 ∨ handle = 8 then some 0 else some 1

/-- The event once and the semaphore twice can be acquired. -/
theorem sampleObjects_acquires : ∃ s', sampleObjects.waitSynchronizationAll sampleHandles 0 [7, 9, 9] (-1) =
    .ok (.success, s') ∧ sampleObjects.AcquiresAll 0 [0, 1, 1] s' := by
  refine ((acquires_available_iff sampleObjects).1 sampleHandles 0 [7, 9, 9] (-1) [0, 1, 1] (by decide) ?_).2 ?_
  · decide
  · intro o ho
    simp only [List.mem_cons, List.not_mem_nil, or_false] at ho
    rcases ho with rfl | rfl | rfl <;> simp [Fits, sampleObjects]

/-- With the event listed twice the assertion of `Acquire` fails, and a semaphore that is listed three times loses only
two units. -/
theorem sampleObjects_listed_twice :
    (sampleObjects.shouldWait 0 0 = false ∧
      sampleObjects.waitSynchronizationAll sampleHandles 0 [7, 8] (-1) matches .error .objectUnavailable) ∧
    (sampleObjects.shouldWait 1 0 = false ∧ ∃ s',
      sampleObjects.waitSynchronizationAll sampleHandles 0 [9, 9, 9] (-1) = .ok (.success, s') ∧
        s'.object 1 = .semaphore 0 4) := by
  refine ⟨⟨rfl, rfl⟩, rfl, _, rfl, rfl⟩

end AcquireAll

end SweepDSEmu.WaitKernel
