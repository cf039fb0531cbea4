import SweepDSEmu.Kernel.SchedulerRun
import SweepDSEmu.Lib.FinNumerals

/-!
# The resources of threads

A thread has a slot for its thread-local storage in the address space of its process, and counts towards the resource
limit of the process.  Both are taken when the thread is created, and given back by `Stop`.

* `stop` gives the slot and the count back whatever the status of the thread is.
* `Accounted` says that the slots and the counts are those of the threads that live.
* A core keeps its current thread until it is rescheduled.  When a process is terminated before that, a thread that has
  exited already is stopped again: `Clean` excludes it.

The owner of a thread is a process that still exists.
-/

namespace SweepDSEmu

open Function

def tlsAreaVaddr : Nat := 0x1FF82000

def tlsEntrySize : Nat := 0x200

def tlsPageSize : Nat := 0x1000

/-- The slots of a page: `std::bitset<8>`. -/
abbrev TlsPage := Fin 8 → Bool

def tlsAddressOf (page slot : Nat) : Nat := tlsAreaVaddr + page * tlsPageSize + slot * tlsEntrySize

structure ThreadKernel where
  scheduler : Scheduler := {}
  tlsAddress : ThreadId → Nat := fun _ => 0
  /-- `tls_slots` of a process. -/
  tlsSlots : Nat → List TlsPage := fun _ => []
  /-- The resource limit of a process. -/
  resourceLimit : Nat → Nat
  /-- The current value of `Thread` of a resource limit. -/
  threadCount : Nat → Int := fun _ => 0

namespace ThreadKernel

def freeSlot (page : TlsPage) : Option (Fin 8) := (List.finRange 8).find? fun slot => !page slot

def findSlot : List TlsPage → Option (Nat × Fin 8)
  | [] => none
  | page :: pages =>
    match freeSlot page with
    | some slot => some (0, slot)
    | none => (findSlot pages).map fun p => (p.1 + 1, p.2)

/-- Changes the bit of a slot.  A page that does not exist is left alone. -/
def setSlot (pages : List TlsPage) (page : Nat) (slot : Fin 8) (value : Bool) : List TlsPage :=
  pages.modify page fun p => Function.update p slot value

/-- `AllocateThreadLocalStorage`: the address, and the slots of the process.  A new page is needed when no slot is free,
and `pageAvailable` tells whether there is memory for it. -/
def allocateThreadLocalStorage (pages : List TlsPage) (pageAvailable : Bool) : Option (Nat × List TlsPage) :=
  match findSlot pages with
  | some (page, slot) => some (tlsAddressOf page slot, setSlot pages page slot true)
  | none =>
    if pageAvailable then
      some (tlsAddressOf pages.length 0, setSlot (pages ++ [fun _ => false]) pages.length 0 true)
    else none

/-- `svcCreateThread` for a process: `Reserve`, and then `CreateThread`. -/
def createThread (s : ThreadKernel) (priority core process : Nat) (category : ResourceLimitCategory)
    (pageAvailable : Bool) : Option ThreadKernel :=
  if priority ≤ threadPrioLowest then
    match allocateThreadLocalStorage (s.tlsSlots process) pageAvailable with
    | some (address, pages) =>
      let t := s.scheduler.nextObjectId
      let limit := s.resourceLimit process
      some { s with
        scheduler := s.scheduler.createThread t priority core process category true
        tlsAddress := Function.update s.tlsAddress t address
        tlsSlots := Function.update s.tlsSlots process pages
        threadCount := Function.update s.threadCount limit (s.threadCount limit + 1) }
    | none => none
  else none

/-- The end of `Stop`: the slot and the count are given back. -/
def releaseResources (s : ThreadKernel) (t : ThreadId) : ThreadKernel :=
  let process := s.scheduler.ownerProcess t
  let tlsPage := (s.tlsAddress t - tlsAreaVaddr) / tlsPageSize
  let tlsSlot := (s.tlsAddress t - tlsAreaVaddr) % tlsPageSize / tlsEntrySize
  let limit := s.resourceLimit process
  { s with
    tlsSlots := Function.update s.tlsSlots process (setSlot (s.tlsSlots process) tlsPage (Fin.ofNat 8 tlsSlot) false)
    threadCount := Function.update s.threadCount limit (s.threadCount limit - 1) }

def stop (s : ThreadKernel) (t : ThreadId) (effects : List Scheduler.Effect) : ThreadKernel :=
  { s with scheduler := s.scheduler.stop t effects }.releaseResources t

/-- A thread is removed from the list of its manager. -/
def unlist (s : ThreadKernel) (core : Nat) (t : ThreadId) : ThreadKernel :=
  { s with scheduler := s.scheduler.unlist core t }

def exitCurrentThread (s : ThreadKernel) (core : Nat) (effects : ThreadId → List Scheduler.Effect) :
    Option ThreadKernel :=
  match (s.scheduler.managers core).currentThread with
  | none => none
  | some t => some ((s.stop t (effects t)).unlist core t)

/-- One turn of the loop of `TerminateProcessThreads`. -/
def terminateOthers (core process : Nat) (effects : ThreadId → List Scheduler.Effect) (s : ThreadKernel)
    (t : ThreadId) : ThreadKernel :=
  if (s.scheduler.managers core).currentThread = some t ∨ s.scheduler.ownerProcess t ≠ process then s
  else (s.stop t (effects t)).unlist core t

def terminateProcessThreads (s : ThreadKernel) (core process : Nat) (effects : ThreadId → List Scheduler.Effect) :
    Option ThreadKernel :=
  let s := (s.scheduler.managers core).threadList.foldl (terminateOthers core process effects) s
  match (s.scheduler.managers core).currentThread with
  | none => some s
  | some t => if s.scheduler.ownerProcess t = process then s.exitCurrentThread core effects else some s

def reschedule (s : ThreadKernel) (core : Nat) : Option ThreadKernel :=
  match s.scheduler.reschedule core with
  | .ok scheduler => some { s with scheduler := scheduler }
  | .error _ => none

/-- The steps of a run.  The other operations of the scheduler can come in between. -/
inductive Op where
  | createThread (priority core process : Nat) (category : ResourceLimitCategory) (pageAvailable : Bool)
  | exitCurrentThread (core : Nat) (effects : ThreadId → List Scheduler.Effect)
  | terminateProcessThreads (core process : Nat) (effects : ThreadId → List Scheduler.Effect)
  | reschedule (core : Nat)
  | resumeFromWait (t : ThreadId)
  | waitCurrentThread (core : Nat) (status : ThreadStatus)

/-- A step; `none` when a call is not successful, or does not apply. -/
def exec (s : ThreadKernel) : Op → Option ThreadKernel
  | .createThread priority core process category pageAvailable =>
    s.createThread priority core process category pageAvailable
  | .exitCurrentThread core effects => s.exitCurrentThread core effects
  | .terminateProcessThreads core process effects => s.terminateProcessThreads core process effects
  | .reschedule core => s.reschedule core
  | .resumeFromWait t => some { s with scheduler := s.scheduler.resumeFromWait t }
  | .waitCurrentThread core status =>
    if status ∈ Scheduler.waitStatuses then some { s with scheduler := s.scheduler.waitCurrentThread core status }
    else none

def Live (s : ThreadKernel) (t : ThreadId) : Prop := s.scheduler.status t ≠ .dead

instance (s : ThreadKernel) (t : ThreadId) : Decidable (s.Live t) := inferInstanceAs (Decidable (_ ≠ _))

def SlotSet (pages : List TlsPage) (page : Nat) (slot : Fin 8) : Prop := ∃ p, pages[page]? = some p ∧ p slot = true

def sharers (s : ThreadKernel) (limit : Nat) : Finset ThreadId :=
  (Finset.range s.scheduler.nextObjectId).filter fun t =>
    s.Live t ∧ s.resourceLimit (s.scheduler.ownerProcess t) = limit

def NoExited (s : ThreadKernel) (core process : Nat) : Prop :=
  ∀ t, (s.scheduler.managers core).currentThread = some t → s.scheduler.ownerProcess t = process → s.Live t

structure Accounted (s : ThreadKernel) : Prop where
  distinct : ∀ t u, s.Live t → s.Live u → s.scheduler.ownerProcess t = s.scheduler.ownerProcess u →
    s.tlsAddress t = s.tlsAddress u → t = u
  slots : ∀ process page slot, SlotSet (s.tlsSlots process) page slot ↔
    ∃ t, s.Live t ∧ s.scheduler.ownerProcess t = process ∧ s.tlsAddress t = tlsAddressOf page slot
  count : ∀ limit, s.threadCount limit = (s.sharers limit).card

section Slots

variable {pages : List TlsPage} {page page' : Nat} {slot slot' : Fin 8}

private theorem tlsAddressOf_sub (page : Nat) (slot : Fin 8) :
    (tlsAddressOf page slot - tlsAreaVaddr) / tlsPageSize = page ∧
      Fin.ofNat 8 ((tlsAddressOf page slot - tlsAreaVaddr) % tlsPageSize / tlsEntrySize) = slot := by
  have hlt := slot.isLt
  have hsub : tlsAddressOf page slot - tlsAreaVaddr = page * 0x1000 + slot * 0x200 := by
    unfold tlsAddressOf tlsPageSize tlsEntrySize
    omega
  rw [hsub]
  unfold tlsPageSize tlsEntrySize
  constructor
  · omega
  · apply Fin.ext
    show (page * 0x1000 + slot * 0x200) % 0x1000 / 0x200 % 8 = slot.val
    omega

theorem tlsAddressOf_inj (h : tlsAddressOf page slot = tlsAddressOf page' slot') : page = page' ∧ slot = slot' := by
  obtain ⟨hpage, hslot⟩ := tlsAddressOf_sub page slot
  obtain ⟨hpage', hslot'⟩ := tlsAddressOf_sub page' slot'
  rw [h] at hpage hslot
  exact ⟨hpage.symm.trans hpage', hslot.symm.trans hslot'⟩

theorem slotSet_setSlot_true (hpage : page < pages.length) :
    SlotSet (setSlot pages page slot true) page' slot' ↔ SlotSet pages page' slot' ∨ page' = page ∧ slot' = slot := by
  unfold SlotSet setSlot
  by_cases hp : page = page'
  · subst hp
    by_cases hs : slot' = slot
    · subst hs
      simp [List.getElem?_eq_getElem hpage]
    · simp [List.getElem?_eq_getElem hpage, hs]
  · have hp' : page' ≠ page := fun h => hp h.symm
    simp [hp, hp']

theorem slotSet_setSlot_false :
    SlotSet (setSlot pages page slot false) page' slot' ↔
      SlotSet pages page' slot' ∧ ¬ (page' = page ∧ slot' = slot) := by
  unfold SlotSet setSlot
  by_cases hp : page = page'
  · subst hp
    by_cases hs : slot' = slot
    · subst hs
      simp
    · simp [hs]
  · have hp' : page' ≠ page := fun h => hp h.symm
    simp [hp, hp']

theorem slotSet_append_empty : SlotSet (pages ++ [fun _ => false]) page slot ↔ SlotSet pages page slot := by
  unfold SlotSet
  rw [List.getElem?_append]
  split
  · rfl
  · rename_i hle
    constructor
    · rintro ⟨p, hp, hset⟩
      rw [List.mem_singleton.mp (List.mem_of_getElem? hp)] at hset
      cases hset
    · rintro ⟨p, hp, -⟩
      exact absurd (List.getElem?_eq_some_iff.mp hp).1 hle

theorem freeSlot_eq_some {p : TlsPage} (h : freeSlot p = some slot) : p slot = false := by
  have hfree := List.find?_some h
  simpa using hfree

theorem findSlot_eq_some (h : findSlot pages = some (page, slot)) :
    page < pages.length ∧ ¬ SlotSet pages page slot := by
  induction pages generalizing page with
  | nil => cases h
  | cons p pages ih =>
    unfold findSlot at h
    cases hfree : freeSlot p with
    | some slot₁ =>
      rw [hfree] at h
      cases h
      refine ⟨Nat.succ_pos _, ?_⟩
      rintro ⟨q, hq, hset⟩
      have hqp : p = q := by simpa using hq
      rw [← hqp, freeSlot_eq_some hfree] at hset
      cases hset
    | none =>
      rw [hfree] at h
      obtain ⟨⟨page₁, slot₁⟩, hfound, heq⟩ := Option.map_eq_some_iff.mp h
      cases heq
      obtain ⟨hlt, hfree₁⟩ := ih hfound
      refine ⟨Nat.succ_lt_succ hlt, ?_⟩
      rintro ⟨q, hq, hset⟩
      exact hfree₁ ⟨q, by simpa using hq, hset⟩

theorem allocateThreadLocalStorage_eq_some {pageAvailable : Bool} {address : Nat} {pages' : List TlsPage}
    (h : allocateThreadLocalStorage pages pageAvailable = some (address, pages')) :
    ∃ page, ∃ slot : Fin 8, address = tlsAddressOf page slot ∧ ¬ SlotSet pages page slot ∧
      ∀ page' slot', SlotSet pages' page' slot' ↔ SlotSet pages page' slot' ∨ page' = page ∧ slot' = slot := by
  unfold allocateThreadLocalStorage at h
  cases hfind : findSlot pages with
  | some found =>
    obtain ⟨page, slot⟩ := found
    rw [hfind] at h
    cases h
    obtain ⟨hlt, hfree⟩ := findSlot_eq_some hfind
    exact ⟨page, slot, rfl, hfree, fun page' slot' => slotSet_setSlot_true hlt⟩
  | none =>
    rw [hfind] at h
    dsimp only at h
    split at h
    · cases h
      refine ⟨pages.length, 0, rfl, ?_, ?_⟩
      · rintro ⟨p, hp, -⟩
        exact absurd (List.getElem?_eq_some_iff.mp hp).1 (Nat.lt_irrefl _)
      · intro page' slot'
        rw [slotSet_setSlot_true (by simp), slotSet_append_empty]
    · cases h

end Slots

/-- The thread `t` dies, and leaves the list of its core. -/
structure Dies (t : ThreadId) (core : Nat) (s s' : Scheduler) : Prop where
  dead : ∀ u, s'.status u = .dead ↔ u = t ∨ s.status u = .dead
  ownerProcess : s'.ownerProcess = s.ownerProcess
  coreId : s'.coreId = s.coreId
  nextObjectId : s'.nextObjectId = s.nextObjectId
  threadList : ∀ c, (s'.managers c).threadList =
    if c = core then (s.managers core).threadList.filter (· ≠ t) else (s.managers c).threadList
  currentThread : ∀ c, (s'.managers c).currentThread = (s.managers c).currentThread

private theorem managers_setStatus (s : Scheduler) (t : ThreadId) (status : ThreadStatus) :
    (s.setStatus t status).managers = s.managers := rfl

private theorem sameLife_effects (s : Scheduler) (effects : List Scheduler.Effect) :
    Scheduler.SameLife s (effects.foldl Scheduler.applyEffect s) := by
  induction effects generalizing s with
  | nil => exact Scheduler.SameLife.refl s
  | cons e effects ih => exact (Scheduler.sameLife_applyEffect e).trans (ih (s.applyEffect e))

private theorem currentThread_applyEffect (s : Scheduler) (e : Scheduler.Effect) (c : Nat) :
    ((s.applyEffect e).managers c).currentThread = (s.managers c).currentThread := by
  cases e with
  | resume t =>
    show ((s.resumeFromWait t).managers c).currentThread = _
    unfold Scheduler.resumeFromWait
    split
    case h_8 | h_9 | h_10 => rfl
    all_goals
      unfold Scheduler.makeReady
      rw [managers_setStatus, (Scheduler.manager_modifyQueue _).1]
  | updatePriority t mutexPriorities =>
    show ((s.boostPriority t _).managers c).currentThread = _
    unfold Scheduler.boostPriority
    split <;> rw [(Scheduler.manager_modifyQueue _).1]

private theorem currentThread_effects (s : Scheduler) (effects : List Scheduler.Effect) (c : Nat) :
    ((effects.foldl Scheduler.applyEffect s).managers c).currentThread = (s.managers c).currentThread := by
  induction effects generalizing s with
  | nil => rfl
  | cons e effects ih =>
    rw [List.foldl_cons, ih]
    exact currentThread_applyEffect s e c

theorem dies_stop (s : Scheduler) (core : Nat) (t : ThreadId) (effects : List Scheduler.Effect) :
    Dies t core s ((s.stop t effects).unlist core t) := by
  have hkill : ∀ u, (s.kill t).status u = .dead ↔ u = t ∨ s.status u = .dead := by
    intro u
    unfold Scheduler.kill
    rw [Scheduler.status_setStatus]
    split
    · rename_i hu
      exact ⟨fun _ => Or.inl hu, fun _ => rfl⟩
    · rename_i hu
      have hstatus : (if (s.unscheduleWakeup t).status t = .ready then
          (s.unscheduleWakeup t).modifyQueue ((s.unscheduleWakeup t).coreId t) fun q =>
            q.remove ((s.unscheduleWakeup t).currentPriority t) t
          else s.unscheduleWakeup t).status = s.status := by
        split <;> rfl
      rw [hstatus]
      exact ⟨Or.inr, fun h => h.resolve_left hu⟩
  have hframe : (s.kill t).ownerProcess = s.ownerProcess ∧ (s.kill t).coreId = s.coreId ∧
      (s.kill t).nextObjectId = s.nextObjectId ∧
      ∀ c, ((s.kill t).managers c).threadList = (s.managers c).threadList ∧
        ((s.kill t).managers c).currentThread = (s.managers c).currentThread := by
    unfold Scheduler.kill
    dsimp only
    split
    · refine ⟨rfl, rfl, rfl, fun c => ?_⟩
      rw [managers_setStatus, (Scheduler.manager_modifyQueue _).2.1, (Scheduler.manager_modifyQueue _).1]
      exact ⟨rfl, rfl⟩
    · exact ⟨rfl, rfl, rfl, fun c => ⟨rfl, rfl⟩⟩
  obtain ⟨howner, hcore, hnext, hmanager⟩ := hframe
  have hlife : Scheduler.SameLife (s.kill t) (s.stop t effects) := sameLife_effects (s.kill t) effects
  constructor
  · intro u
    exact (hlife.dead u).trans (hkill u)
  · exact hlife.ownerProcess.trans howner
  · exact hlife.coreId.trans hcore
  · exact hlife.nextObjectId.trans hnext
  · intro c
    unfold Scheduler.unlist
    rw [Scheduler.managers_modifyManager]
    split
    · rw [hlife.threadList, (hmanager core).1]
    · rw [hlife.threadList, (hmanager c).1]
  · intro c
    have hcurrent := (currentThread_effects (s.kill t) effects c).trans (hmanager c).2
    unfold Scheduler.unlist
    rw [Scheduler.managers_modifyManager]
    split
    · rename_i hc
      subst hc
      exact hcurrent
    · exact hcurrent

structure Good (s : ThreadKernel) : Prop extends Accounted s where
  consistent : Scheduler.Consistent none s.scheduler
  address : ∀ t, s.Live t → ∃ page, ∃ slot : Fin 8, s.tlsAddress t = tlsAddressOf page slot
  listed : ∀ c t, t ∈ (s.scheduler.managers c).threadList → s.Live t ∧ s.scheduler.coreId t = c
  nodup : ∀ c, (s.scheduler.managers c).threadList.Nodup

section Steps

variable {s : ThreadKernel} {t : ThreadId} {core : Nat}

theorem Good.sameLife (h : Good s) {scheduler : Scheduler} (hl : Scheduler.SameLife s.scheduler scheduler)
    (hc : Scheduler.Consistent none scheduler) : Good { s with scheduler := scheduler } := by
  have hlive : ∀ t, Live { s with scheduler := scheduler } t ↔ s.Live t := fun t => not_congr (hl.dead t)
  have hsharers : ∀ limit, sharers { s with scheduler := scheduler } limit = s.sharers limit := by
    intro limit
    ext u
    simp only [sharers, Finset.mem_filter, Finset.mem_range, hlive, hl.ownerProcess, hl.nextObjectId]
  constructor
  · constructor
    · intro t u ht hu howner haddress
      rw [hlive] at ht hu
      rw [hl.ownerProcess] at howner
      exact h.distinct t u ht hu howner haddress
    · intro process page slot
      rw [h.slots process page slot]
      simp only [hlive, hl.ownerProcess]
    · intro limit
      rw [hsharers]
      exact h.count limit
  · exact hc
  · intro t ht
    exact h.address t ((hlive t).mp ht)
  · intro c t ht
    rw [hl.threadList] at ht
    rw [hlive, hl.coreId]
    exact h.listed c t ht
  · intro c
    rw [hl.threadList]
    exact h.nodup c

/-- Stopping a thread that lives gives its slot and its count back. -/
theorem Good.stop (h : Good s) (hlive : s.Live t) (hcore : s.scheduler.coreId t = core)
    (effects : List Scheduler.Effect) : Good ((s.stop t effects).unlist core t) := by
  have hdies := dies_stop s.scheduler core t effects
  have hcons : Scheduler.Consistent none ((s.scheduler.stop t effects).unlist core t) :=
    (h.consistent.stop t effects).unlist core t
  have hlives : ∀ u, Live ((s.stop t effects).unlist core t) u ↔ u ≠ t ∧ s.Live u := by
    intro u
    unfold Live
    rw [← not_or]
    exact not_congr (hdies.dead u)
  have howner : ((s.stop t effects).unlist core t).scheduler.ownerProcess = s.scheduler.ownerProcess :=
    hdies.ownerProcess
  have howner₁ : (s.scheduler.stop t effects).ownerProcess = s.scheduler.ownerProcess := hdies.ownerProcess
  obtain ⟨page, slot, haddress⟩ := h.address t hlive
  obtain ⟨hpage, hslot⟩ := tlsAddressOf_sub page slot
  have hslots : ((s.stop t effects).unlist core t).tlsSlots =
      update s.tlsSlots (s.scheduler.ownerProcess t)
        (setSlot (s.tlsSlots (s.scheduler.ownerProcess t)) page slot false) := by
    unfold ThreadKernel.stop ThreadKernel.unlist releaseResources
    dsimp only
    rw [howner₁, haddress, hpage, hslot]
  have hcount : ((s.stop t effects).unlist core t).threadCount =
      update s.threadCount (s.resourceLimit (s.scheduler.ownerProcess t))
        (s.threadCount (s.resourceLimit (s.scheduler.ownerProcess t)) - 1) := by
    unfold ThreadKernel.stop ThreadKernel.unlist releaseResources
    rw [howner₁]
  have hsharers : ∀ limit, ((s.stop t effects).unlist core t).sharers limit = (s.sharers limit).erase t := by
    intro limit
    ext u
    simp only [sharers, Finset.mem_filter, Finset.mem_range, Finset.mem_erase, hlives, howner]
    rw [show ((s.stop t effects).unlist core t).scheduler.nextObjectId = s.scheduler.nextObjectId from
      hdies.nextObjectId]
    constructor
    · rintro ⟨hlt, ⟨hne, hl⟩, hlim⟩
      exact ⟨hne, hlt, hl, hlim⟩
    · rintro ⟨hne, hlt, hl, hlim⟩
      exact ⟨hlt, ⟨hne, hl⟩, hlim⟩
  constructor
  · constructor
    · intro u v hu hv
      rw [hlives] at hu hv
      rw [howner]
      exact h.distinct u v hu.2 hv.2
    · intro process page' slot'
      rw [hslots, howner]
      by_cases hp : process = s.scheduler.ownerProcess t
      · subst hp
        rw [update_self, slotSet_setSlot_false, h.slots]
        constructor
        · rintro ⟨⟨u, hu, huowner, huaddress⟩, hne⟩
          refine ⟨u, (hlives u).mpr ⟨?_, hu⟩, huowner, huaddress⟩
          rintro rfl
          exact hne (tlsAddressOf_inj (huaddress.symm.trans haddress))
        · rintro ⟨u, hu, huowner, huaddress⟩
          obtain ⟨hut, hulive⟩ := (hlives u).mp hu
          refine ⟨⟨u, hulive, huowner, huaddress⟩, ?_⟩
          rintro ⟨rfl, rfl⟩
          exact hut (h.distinct u t hulive hlive huowner (Eq.trans huaddress haddress.symm))
      · rw [update_of_ne hp, h.slots]
        constructor
        · rintro ⟨u, hu, huowner, huaddress⟩
          refine ⟨u, (hlives u).mpr ⟨?_, hu⟩, huowner, huaddress⟩
          rintro rfl
          exact hp huowner.symm
        · rintro ⟨u, hu, huowner, huaddress⟩
          exact ⟨u, ((hlives u).mp hu).2, huowner, huaddress⟩
    · intro limit
      rw [hcount, hsharers]
      by_cases hlim : limit = s.resourceLimit (s.scheduler.ownerProcess t)
      · subst hlim
        have hmem : t ∈ s.sharers (s.resourceLimit (s.scheduler.ownerProcess t)) := by
          rw [sharers, Finset.mem_filter, Finset.mem_range]
          exact ⟨h.consistent.created t hlive, hlive, rfl⟩
        have hpos := Finset.card_pos.mpr ⟨t, hmem⟩
        rw [update_self, h.count, Finset.card_erase_of_mem hmem]
        omega
      · have hnot : t ∉ s.sharers limit := by
          simp only [sharers, Finset.mem_filter, Finset.mem_range]
          rintro ⟨-, -, heq⟩
          exact hlim heq.symm
        rw [update_of_ne hlim, h.count, Finset.erase_eq_of_notMem hnot]
  · exact hcons
  · intro u hu
    exact h.address u ((hlives u).mp hu).2
  · intro c u hu
    have hlist := hdies.threadList c
    rw [show (((s.stop t effects).unlist core t).scheduler.managers c).threadList = _ from hlist] at hu
    rw [hlives, show ((s.stop t effects).unlist core t).scheduler.coreId = s.scheduler.coreId from hdies.coreId]
    split at hu
    · rename_i hc
      rw [hc]
      obtain ⟨hin, hne⟩ := List.mem_filter.mp hu
      obtain ⟨hl, hid⟩ := h.listed core u hin
      exact ⟨⟨of_decide_eq_true hne, hl⟩, hid⟩
    · rename_i hc
      obtain ⟨hl, hid⟩ := h.listed c u hu
      refine ⟨⟨?_, hl⟩, hid⟩
      rintro rfl
      exact hc (hid.symm.trans hcore)
  · intro c
    rw [show (((s.stop t effects).unlist core t).scheduler.managers c).threadList = _ from hdies.threadList c]
    split
    · exact (h.nodup core).filter _
    · exact h.nodup c

/-- A thread `t` is created, and gets a slot that is free. -/
structure Gains (t : ThreadId) (core process page : Nat) (slot : Fin 8) (s s' : ThreadKernel) : Prop where
  dead : s.scheduler.status t = .dead
  live : ∀ u, s'.Live u ↔ u = t ∨ s.Live u
  ownerProcess : s'.scheduler.ownerProcess = Function.update s.scheduler.ownerProcess t process
  coreId : s'.scheduler.coreId = Function.update s.scheduler.coreId t core
  nextObjectId : s.scheduler.nextObjectId ≤ s'.scheduler.nextObjectId ∧ t < s'.scheduler.nextObjectId
  threadList : ∀ c, (s'.scheduler.managers c).threadList =
    if c = core then (s.scheduler.managers core).threadList ++ [t] else (s.scheduler.managers c).threadList
  address : s'.tlsAddress = Function.update s.tlsAddress t (tlsAddressOf page slot)
  free : ¬ SlotSet (s.tlsSlots process) page slot
  slots : ∀ process' page' slot', SlotSet (s'.tlsSlots process') page' slot' ↔
    SlotSet (s.tlsSlots process') page' slot' ∨ process' = process ∧ page' = page ∧ slot' = slot
  resourceLimit : s'.resourceLimit = s.resourceLimit
  threadCount : s'.threadCount = Function.update s.threadCount (s.resourceLimit process)
    (s.threadCount (s.resourceLimit process) + 1)

section Gains

variable {process page : Nat} {slot : Fin 8} {s' : ThreadKernel}

section

variable (g : Gains t core process page slot s s')

include g

private theorem Gains.ne {u : ThreadId} (hu : s.Live u) : u ≠ t := by
  rintro rfl
  exact hu g.dead

private theorem Gains.old {u : ThreadId} (hu : s.Live u) :
    s'.scheduler.ownerProcess u = s.scheduler.ownerProcess u ∧ s'.tlsAddress u = s.tlsAddress u ∧
      s'.scheduler.coreId u = s.scheduler.coreId u := by
  rw [g.ownerProcess, g.address, g.coreId]
  exact ⟨update_of_ne (g.ne hu) .., update_of_ne (g.ne hu) .., update_of_ne (g.ne hu) ..⟩

private theorem Gains.new : s'.scheduler.ownerProcess t = process ∧ s'.tlsAddress t = tlsAddressOf page slot := by
  rw [g.ownerProcess, g.address]
  exact ⟨update_self .., update_self ..⟩

private theorem Gains.fresh (h : Accounted s) {u : ThreadId} (hu : s.Live u)
    (howner : s'.scheduler.ownerProcess u = s'.scheduler.ownerProcess t) : s'.tlsAddress u ≠ s'.tlsAddress t := by
  rw [(g.old hu).1, g.new.1] at howner
  rw [(g.old hu).2.1, g.new.2]
  intro haddress
  exact g.free ((h.slots process page slot).mpr ⟨u, hu, howner, haddress⟩)

private theorem Gains.distinct (h : Accounted s) (u v : ThreadId)
    (hu : s'.Live u) (hv : s'.Live v) (howner : s'.scheduler.ownerProcess u = s'.scheduler.ownerProcess v)
    (haddress : s'.tlsAddress u = s'.tlsAddress v) : u = v := by
  rcases (g.live u).mp hu with rfl | hu'
  · rcases (g.live v).mp hv with rfl | hv'
    · rfl
    · exact (g.fresh h hv' howner.symm haddress.symm).elim
  · rcases (g.live v).mp hv with rfl | hv'
    · exact (g.fresh h hu' howner haddress).elim
    · rw [(g.old hu').1, (g.old hv').1] at howner
      rw [(g.old hu').2.1, (g.old hv').2.1] at haddress
      exact h.distinct u v hu' hv' howner haddress

private theorem Gains.slots_iff (h : Accounted s) (process' page' : Nat)
    (slot' : Fin 8) : SlotSet (s'.tlsSlots process') page' slot' ↔
      ∃ u, s'.Live u ∧ s'.scheduler.ownerProcess u = process' ∧ s'.tlsAddress u = tlsAddressOf page' slot' := by
  rw [g.slots, h.slots]
  constructor
  · rintro (⟨u, hu, huowner, huaddress⟩ | ⟨rfl, rfl, rfl⟩)
    · obtain ⟨howner, haddress, -⟩ := g.old hu
      exact ⟨u, (g.live u).mpr (Or.inr hu), howner.trans huowner, haddress.trans huaddress⟩
    · exact ⟨t, (g.live t).mpr (Or.inl rfl), g.new⟩
  · rintro ⟨u, hu, huowner, huaddress⟩
    rcases (g.live u).mp hu with rfl | hu'
    · obtain ⟨hpage, hslot⟩ := tlsAddressOf_inj (g.new.2.symm.trans huaddress)
      exact Or.inr ⟨huowner.symm.trans g.new.1, hpage.symm, hslot.symm⟩
    · obtain ⟨howner, haddress, -⟩ := g.old hu'
      exact Or.inl ⟨u, hu', howner.symm.trans huowner, haddress.symm.trans huaddress⟩

private theorem Gains.mem_sharers (h : Good s) (limit : Nat) (u : ThreadId) :
    u ∈ s'.sharers limit ↔ u ∈ s.sharers limit ∨ u = t ∧ s.resourceLimit process = limit := by
  rw [sharers, sharers, Finset.mem_filter, Finset.mem_filter, Finset.mem_range, Finset.mem_range, g.resourceLimit]
  constructor
  · rintro ⟨-, hu, hlim⟩
    rcases (g.live u).mp hu with rfl | hu'
    · rw [g.new.1] at hlim
      exact Or.inr ⟨rfl, hlim⟩
    · rw [(g.old hu').1] at hlim
      exact Or.inl ⟨h.consistent.created u hu', hu', hlim⟩
  · rintro (⟨hlt, hu, hlim⟩ | ⟨rfl, hlim⟩)
    · refine ⟨Nat.lt_of_lt_of_le hlt g.nextObjectId.1, (g.live u).mpr (Or.inr hu), ?_⟩
      rw [(g.old hu).1]
      exact hlim
    · refine ⟨g.nextObjectId.2, (g.live u).mpr (Or.inl rfl), ?_⟩
      rw [g.new.1]
      exact hlim

private theorem Gains.count (h : Good s) (limit : Nat) :
    s'.threadCount limit = (s'.sharers limit).card := by
  rw [g.threadCount]
  by_cases hlim : limit = s.resourceLimit process
  · have hnot : t ∉ s.sharers limit := by
      rw [sharers, Finset.mem_filter]
      rintro ⟨-, hl, -⟩
      exact hl g.dead
    have hinsert : s'.sharers limit = insert t (s.sharers limit) := by
      ext u
      rw [g.mem_sharers h, Finset.mem_insert, or_comm]
      exact or_congr (and_iff_left hlim.symm) Iff.rfl
    rw [hinsert, Finset.card_insert_of_notMem hnot, hlim, update_self, h.count]
    simp
  · have hsame : s'.sharers limit = s.sharers limit := by
      ext u
      rw [g.mem_sharers h]
      exact or_iff_left fun hu => hlim hu.2.symm
    rw [hsame, update_of_ne hlim, h.count]

end

theorem Good.gains (h : Good s) (g : Gains t core process page slot s s')
    (hc : Scheduler.Consistent none s'.scheduler) : Good s' := by
  constructor
  · exact ⟨g.distinct h.toAccounted, g.slots_iff h.toAccounted, g.count h⟩
  · exact hc
  · intro u hu
    rcases (g.live u).mp hu with rfl | hu'
    · exact ⟨page, slot, g.new.2⟩
    · rw [(g.old hu').2.1]
      exact h.address u hu'
  · intro c u hu
    rw [g.threadList] at hu
    have hold : u ∈ (s.scheduler.managers c).threadList → s'.Live u ∧ s'.scheduler.coreId u = c := by
      intro hin
      obtain ⟨hl, hid⟩ := h.listed c u hin
      exact ⟨(g.live u).mpr (Or.inr hl), (g.old hl).2.2.trans hid⟩
    split at hu
    · rename_i hcore
      subst hcore
      rcases List.mem_append.mp hu with hin | hin
      · exact hold hin
      · rw [List.mem_singleton.mp hin, g.coreId]
        exact ⟨(g.live t).mpr (Or.inl rfl), update_self ..⟩
    · exact hold hu
  · intro c
    rw [g.threadList]
    split
    · refine List.nodup_append.mpr ⟨h.nodup core, List.nodup_singleton t, ?_⟩
      intro u hu v hv
      rw [List.mem_singleton.mp hv]
      exact g.ne (h.listed core u hu).1
    · exact h.nodup c

end Gains

theorem Good.createThread (h : Good s) {priority core process : Nat} {category : ResourceLimitCategory}
    {pageAvailable : Bool} {s' : ThreadKernel}
    (hs : s.createThread priority core process category pageAvailable = some s') : Good s' := by
  unfold ThreadKernel.createThread at hs
  split at hs
  case isFalse => cases hs
  case isTrue hprio =>
  split at hs
  case h_2 => cases hs
  case h_1 address pages halloc =>
  cases hs
  obtain ⟨page, slot, haddress, hfree, hpages⟩ := allocateThreadLocalStorage_eq_some halloc
  obtain ⟨t, ht⟩ : ∃ t, t = s.scheduler.nextObjectId := ⟨_, rfl⟩
  rw [← ht]
  have hdead : s.scheduler.status t = .dead := h.consistent.dead_of_le (Nat.le_of_eq ht.symm)
  have hcons := h.consistent.createThread ht hprio core process category true
  suffices hgains : Gains t core process page slot s _ from h.gains hgains hcons
  constructor
  case dead => exact hdead
  case live =>
    intro u
    unfold Live Scheduler.createThread Scheduler.makeReady
    simp only [if_true]
    rw [Scheduler.status_setStatus]
    split
    · rename_i hu
      exact ⟨fun _ => Or.inl hu, fun _ => by decide⟩
    · rename_i hu
      have hstatus : update s.scheduler.status t .dormant u = s.scheduler.status u :=
        update_of_ne hu ..
      exact (not_congr (iff_of_eq (congrArg (· = ThreadStatus.dead) hstatus))).trans
        ⟨Or.inr, fun hl => hl.resolve_left hu⟩
  case ownerProcess => rfl
  case coreId => rfl
  case nextObjectId => exact ⟨Nat.le_max_left _ (t + 1), Nat.le_max_right s.scheduler.nextObjectId _⟩
  case threadList =>
    intro c
    unfold Scheduler.createThread Scheduler.makeReady
    simp only [if_true]
    rw [managers_setStatus, (Scheduler.manager_modifyQueue _).2.1]
    rw [Scheduler.managers_modifyManager]
    split <;> rfl
  case address =>
    rw [haddress]
  case free => exact hfree
  case slots =>
    intro process' page' slot'
    dsimp only
    by_cases hp : process' = process
    · subst hp
      rw [update_self, hpages]
      simp
    · simp [hp]
  case resourceLimit => rfl
  case threadCount => rfl

/-- The loop of `TerminateProcessThreads`: the threads of the list live until it is their turn, and the current thread
of the core stays as it is. -/
theorem Good.terminateOthers (process : Nat) (effects : ThreadId → List Scheduler.Effect) (l : List ThreadId)
    (hl : l.Nodup) (s : ThreadKernel) (h : Good s) (hin : ∀ t ∈ l, s.Live t ∧ s.scheduler.coreId t = core)
    (hcur : s.NoExited core process) :
    Good (l.foldl (ThreadKernel.terminateOthers core process effects) s) ∧
      (l.foldl (ThreadKernel.terminateOthers core process effects) s).NoExited core process := by
  induction l generalizing s with
  | nil => exact ⟨h, hcur⟩
  | cons t l ih =>
    obtain ⟨hnot, hnodup⟩ := List.nodup_cons.mp hl
    obtain ⟨hlive, hcore⟩ := hin t (List.mem_cons_self ..)
    rw [List.foldl_cons]
    unfold ThreadKernel.terminateOthers
    split
    · exact ih hnodup s h (fun u hu => hin u (List.mem_cons_of_mem t hu)) hcur
    · rename_i hother
      have hdies := dies_stop s.scheduler core t (effects t)
      -- only the thread that is stopped dies
      have hkeeps : ∀ u, s.Live u → u ≠ t → ((s.stop t (effects t)).unlist core t).Live u := by
        intro u hu hne hdead
        rcases (hdies.dead u).mp hdead with heq | hd
        · exact hne heq
        · exact hu hd
      refine ih hnodup _ (h.stop hlive hcore (effects t)) ?_ ?_
      · intro u hu
        obtain ⟨hulive, hucore⟩ := hin u (List.mem_cons_of_mem t hu)
        refine ⟨hkeeps u hulive ?_, (congrFun hdies.coreId u).trans hucore⟩
        rintro rfl
        exact hnot hu
      · intro u hu howner
        have hu' : (s.scheduler.managers core).currentThread = some u := (hdies.currentThread core).symm.trans hu
        refine hkeeps u (hcur u hu' ((congrFun hdies.ownerProcess u).symm.trans howner)) ?_
        rintro rfl
        exact hother (Or.inl hu')

theorem Good.exitCurrentThread (h : Good s) (effects : ThreadId → List Scheduler.Effect)
    (hcur : (s.scheduler.managers core).currentThread = some t) (hlive : s.Live t) :
    ∃ s', s.exitCurrentThread core effects = some s' ∧ Good s' := by
  unfold ThreadKernel.exitCurrentThread
  rw [hcur]
  exact ⟨_, rfl, h.stop hlive (h.consistent.current core t hcur).1 (effects t)⟩

theorem Good.terminateProcessThreads (h : Good s) (process : Nat) (effects : ThreadId → List Scheduler.Effect)
    (hcur : s.NoExited core process) :
    ∃ s', s.terminateProcessThreads core process effects = some s' ∧ Good s' := by
  obtain ⟨hgood, hcur'⟩ := Good.terminateOthers process effects (s.scheduler.managers core).threadList (h.nodup core)
    s h (h.listed core) hcur
  unfold ThreadKernel.terminateProcessThreads
  dsimp only
  generalize (s.scheduler.managers core).threadList.foldl (ThreadKernel.terminateOthers core process effects) s = s₁
    at hgood hcur'
  split
  · exact ⟨s₁, rfl, hgood⟩
  · rename_i t ht
    split
    · rename_i howner
      exact hgood.exitCurrentThread effects ht (hcur' t ht howner)
    · exact ⟨s₁, rfl, hgood⟩

theorem Good.reschedule (h : Good s) (core : Nat) : ∃ s', s.reschedule core = some s' ∧ Good s' := by
  obtain ⟨k, hk, hc, hlife⟩ := h.consistent.reschedule core
  unfold ThreadKernel.reschedule
  rw [hk]
  exact ⟨_, rfl, h.sameLife hlife hc⟩

theorem Good.resumeFromWait (h : Good s) (t : ThreadId) :
    Good { s with scheduler := s.scheduler.resumeFromWait t } :=
  h.sameLife (Scheduler.sameLife_resumeFromWait t) (h.consistent.resumeFromWait t)

theorem Good.waitCurrentThread (h : Good s) (core : Nat) {status : ThreadStatus}
    (hstatus : status ∈ Scheduler.waitStatuses) :
    Good { s with scheduler := s.scheduler.waitCurrentThread core status } := by
  have hne : ∀ other, other ∉ Scheduler.waitStatuses → status ≠ other := by
    rintro other hnot rfl
    exact hnot hstatus
  refine h.sameLife ?_ (h.consistent.waitCurrentThread core (hne _ (by decide)) (hne _ (by decide)))
  unfold Scheduler.waitCurrentThread
  split
  · exact Scheduler.SameLife.refl _
  · split
    · rename_i hrun
      refine Scheduler.sameLife_setStatus ?_ (hne _ (by decide))
      rw [hrun]
      decide
    · exact Scheduler.SameLife.refl _

end Steps

def initial (resourceLimit : Nat → Nat) : ThreadKernel := { resourceLimit := resourceLimit }

def run (resourceLimit : Nat → Nat) (ops : List Op) : Option ThreadKernel := ops.foldlM exec (initial resourceLimit)

/-- A step that stops no thread for the second time.  A thread calls `ExitThread` itself while it runs, and a creation
is successful. -/
def Clean (s : ThreadKernel) : Op → Prop
  | .createThread priority core process category pageAvailable =>
    (s.createThread priority core process category pageAvailable).isSome
  | .exitCurrentThread core _ => ∃ t, (s.scheduler.managers core).currentThread = some t ∧ s.Live t
  | .terminateProcessThreads core process _ => s.NoExited core process
  | .waitCurrentThread _ status => status ∈ Scheduler.waitStatuses
  | .reschedule _ | .resumeFromWait _ => True

def CleanRun : ThreadKernel → List Op → Prop
  | _, [] => True
  | s, op :: ops => Clean s op ∧ ∀ s', s.exec op = some s' → CleanRun s' ops

theorem good_initial (resourceLimit : Nat → Nat) : Good (initial resourceLimit) where
  distinct := fun t u ht => (ht rfl).elim
  slots := by
    intro process page slot
    constructor
    · rintro ⟨p, hp, -⟩
      cases hp
    · rintro ⟨t, ht, -⟩
      exact (ht rfl).elim
  count := fun limit => rfl
  consistent := Scheduler.consistent_empty
  address := fun t ht => (ht rfl).elim
  listed := fun c t ht => by cases ht
  nodup := fun c => List.nodup_nil

theorem Good.exec {s : ThreadKernel} (h : Good s) {op : Op} (hop : Clean s op) :
    ∃ s', s.exec op = some s' ∧ Good s' := by
  cases op with
  | createThread priority core process category pageAvailable =>
    obtain ⟨s', hs'⟩ := Option.isSome_iff_exists.mp hop
    exact ⟨s', hs', h.createThread hs'⟩
  | exitCurrentThread core effects =>
    obtain ⟨t, ht, hlive⟩ := hop
    exact h.exitCurrentThread effects ht hlive
  | terminateProcessThreads core process effects => exact h.terminateProcessThreads process effects hop
  | reschedule core => exact h.reschedule core
  | resumeFromWait t => exact ⟨_, rfl, h.resumeFromWait t⟩
  | waitCurrentThread core status => exact ⟨_, if_pos hop, h.waitCurrentThread core hop⟩

theorem Good.foldlM {s : ThreadKernel} (h : Good s) {ops : List Op} (hops : CleanRun s ops) :
    ∃ s', ops.foldlM ThreadKernel.exec s = some s' ∧ Good s' := by
  induction ops generalizing s with
  | nil => exact ⟨s, rfl, h⟩
  | cons op ops ih =>
    obtain ⟨hop, hrest⟩ := hops
    obtain ⟨s₁, hs₁, h₁⟩ := h.exec hop
    obtain ⟨s₂, hs₂, h₂⟩ := ih h₁ (hrest s₁ hs₁)
    refine ⟨s₂, ?_, h₂⟩
    rw [List.foldlM_cons, hs₁]
    exact hs₂

/-- As long as no thread that has exited is stopped again, threads that live have slots of their own, the slots in use
are theirs, and each resource limit counts them. -/
theorem run_accounted (resourceLimit : Nat → Nat) (ops : List Op) (hops : CleanRun (initial resourceLimit) ops) :
    ∃ s, run resourceLimit ops = some s ∧ s.Accounted := by
  obtain ⟨s, hrun, h⟩ := (good_initial resourceLimit).foldlM hops
  exact ⟨s, hrun, h.toAccounted⟩

def sampleOps : List Op := [.createThread 0x30 0 1 .application true, .reschedule 0]

def terminateOps : List Op := sampleOps ++ [.terminateProcessThreads 0 1 fun _ => []]

private theorem sampleOps_current : (run (fun _ => 0) sampleOps).map (fun s =>
    ((s.scheduler.managers 0).currentThread, s.scheduler.status 0)) = some (some 0, .running) := by
  decide +kernel

theorem terminateOps_accounted : CleanRun (initial fun _ => 0) terminateOps ∧
    ∃ s, run (fun _ => 0) terminateOps = some s ∧ s.Accounted := by
  have hops : CleanRun (initial fun _ => 0) terminateOps := by
    refine ⟨rfl, fun s₁ hs₁ => ⟨trivial, fun s₂ hs₂ => ⟨?_, fun _ _ => trivial⟩⟩⟩
    have hrun : run (fun _ => 0) sampleOps = some s₂ := by
      unfold run sampleOps
      rw [List.foldlM_cons, hs₁]
      show List.foldlM exec s₁ [.reschedule 0] = some s₂
      rw [List.foldlM_cons, hs₂]
      rfl
    have hcurrent := sampleOps_current
    rw [hrun] at hcurrent
    obtain ⟨hthread, hstatus⟩ := Prod.mk.inj (Option.some_inj.mp hcurrent)
    intro t ht _ hdead
    rw [hthread] at ht
    cases ht
    rw [hstatus] at hdead
    cases hdead
  exact ⟨hops, run_accounted (fun _ => 0) terminateOps hops⟩

def exitOps : List Op := sampleOps ++ [.exitCurrentThread 0 fun _ => [], .terminateProcessThreads 0 1 fun _ => []]

/-- The process is terminated before the core is rescheduled, and the thread is counted out twice. -/
theorem exitOps_not_accounted :
    ∃ s, run (fun _ => 0) exitOps = some s ∧ s.threadCount 0 = -1 ∧ ¬ s.Accounted := by
  have hcount : (run (fun _ => 0) exitOps).map (fun s => s.threadCount 0) = some (-1) := by decide +kernel
  obtain ⟨s, hrun, hs⟩ := Option.map_eq_some_iff.mp hcount
  refine ⟨s, hrun, hs, ?_⟩
  intro h
  have hcard := h.count 0
  rw [hs] at hcard
  omega

end ThreadKernel

end SweepDSEmu
