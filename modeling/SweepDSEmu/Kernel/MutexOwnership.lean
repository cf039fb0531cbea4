import SweepDSEmu.Kernel.WaitEffects
import SweepDSEmu.Lib.RecursiveLock

/-!
# Who holds a mutex

A mutex keeps its holder and its lock count, and every thread keeps the list of the mutexes that it holds.

* Lock counts are integers; their overflow is undefined in the source.
* `Owned` says how they agree at any time, also in the middle of `Stop`: there the list of the thread that ends still
  has the mutexes that others may have taken already.
* The owners are those of recursive locks.  What a step does to them is an event of these, so every run of the
  operations is a run of recursive locks: `run_mutexOwnership`.
-/

namespace SweepDSEmu

open RecursiveLock (Owners Event)

open Function

def ObjectCore.owner : ObjectCore → Option (ThreadId × Nat)
  | .mutex lockCount (some t) => some (t, (lockCount - 1).toNat)
  | _ => none

def WaitEvent.lockEvents : WaitEvent → List (Event ObjectId ThreadId)
  | .acquire o t => [.acquire o t]
  | .release o t => [.release o t]
  | .abandon o _ => [.abandon o]
  | _ => []

namespace WaitView

def owners (v : WaitView) : Owners ObjectId ThreadId := fun o => (v.core o).owner

/-- The holder, the lock count and the lists of mutexes agree; the list of a thread that has ended may be too long. -/
structure Owned (v : WaitView) : Prop where
  count : ∀ o lockCount holder, v.core o = .mutex lockCount holder →
    0 ≤ lockCount ∧ (0 < lockCount ↔ holder.isSome)
  held : ∀ o t lockCount, v.core o = .mutex lockCount (some t) → o ∈ v.heldMutexes t
  holder : ∀ o t, o ∈ v.heldMutexes t → v.status t ≠ .dead → ∃ lockCount, v.core o = .mutex lockCount (some t)
  mutex : ∀ o t, o ∈ v.heldMutexes t → ∃ lockCount holder, v.core o = .mutex lockCount holder
  nodup : ∀ t, (v.heldMutexes t).Nodup
  freshObject : ∀ o, v.nextObjectId ≤ o → v.core o = .plain
  freshThread : ∀ t, v.nextThreadId ≤ t → v.status t = .dead ∧ v.heldMutexes t = []

variable {v v' : WaitView} {o : ObjectId} {t : ThreadId} {lockCount : Int}

theorem Owned.setStatus (h : v.Owned) (status : ThreadStatus) (hdead : v.status t = .dead → status = .dead) :
    (v.setStatus t status).Owned := by
  have hstatus : ∀ u, v.status u = .dead → update v.status t status u = .dead := by
    intro u hu
    rw [update_apply]
    split
    · rename_i heq
      rw [heq] at hu
      exact hdead hu
    · exact hu
  refine ⟨h.count, h.held, ?_, h.mutex, h.nodup, h.freshObject, ?_⟩
  · intro o u ho hu
    exact h.holder o u ho fun hold => hu (hstatus u hold)
  · intro u hu
    exact ⟨hstatus u (h.freshThread u hu).1, (h.freshThread u hu).2⟩

private theorem Owned.setCore (h : v.Owned) {core : ObjectCore} {n : ObjectId}
    (hold : ∀ lockCount holder, v.core o ≠ .mutex lockCount holder)
    (hcount : ∀ lockCount holder, core = .mutex lockCount holder → lockCount = 0 ∧ holder = none)
    (hnext : v.nextObjectId ≤ n) (hfresh : n ≤ o → core = .plain) :
    Owned { v.setCore o core with nextObjectId := n } := by
  have hself : update v.core o core o = core := update_self ..
  have hother : ∀ o', o' ≠ o → update v.core o core o' = v.core o' :=
    fun o' ho' => update_of_ne ho' ..
  have hmutex : ∀ o' u, o' ∈ v.heldMutexes u → o' ≠ o := by
    rintro o' u ho' rfl
    obtain ⟨c, holder, hc⟩ := h.mutex o' u ho'
    exact hold c holder hc
  constructor
  · intro o' c holder hc
    by_cases ho : o' = o
    · subst ho
      obtain ⟨rfl, rfl⟩ := hcount c holder (hself.symm.trans hc)
      exact ⟨le_refl 0, by decide⟩
    · exact h.count o' c holder ((hother o' ho).symm.trans hc)
  · intro o' u c hc
    by_cases ho : o' = o
    · subst ho
      obtain ⟨-, hnone⟩ := hcount c _ (hself.symm.trans hc)
      cases hnone
    · exact h.held o' u c ((hother o' ho).symm.trans hc)
  · intro o' u ho' hu
    obtain ⟨c, hc⟩ := h.holder o' u ho' hu
    exact ⟨c, (hother o' (hmutex o' u ho')).trans hc⟩
  · intro o' u ho'
    obtain ⟨c, holder, hc⟩ := h.mutex o' u ho'
    exact ⟨c, holder, (hother o' (hmutex o' u ho')).trans hc⟩
  · exact h.nodup
  · intro o' ho'
    by_cases ho : o' = o
    · subst ho
      exact hself.trans (hfresh ho')
    · exact (hother o' ho).trans (h.freshObject o' (hnext.trans ho'))
  · exact h.freshThread

private theorem owners_setCore (v : WaitView) (o : ObjectId) (core : ObjectCore) :
    (v.setCore o core).owners = update v.owners o core.owner := by
  funext o'
  show (update v.core o core o').owner = update v.owners o core.owner o'
  rw [update_apply, update_apply]
  split <;> rfl

private theorem owners_setCore_none {core : ObjectCore} (hold : (v.core o).owner = none) (hnew : core.owner = none) :
    (v.setCore o core).owners = v.owners := by
  rw [owners_setCore, hnew, ← hold]
  exact update_eq_self o v.owners

private theorem Owned.setSession (h : v.Owned) {client client' : Bool} {pending pending' : List ThreadId}
    {handling handling' : Option ThreadId} (hcore : v.core o = .session client pending handling) :
    (v.setCore o (.session client' pending' handling')).Owned ∧
      (v.setCore o (.session client' pending' handling')).owners = v.owners := by
  constructor
  · refine h.setCore ?_ ?_ (le_refl _) ?_
    · intro c holder hc
      rw [hcore] at hc
      cases hc
    · intro c holder hc
      cases hc
    · intro ho
      rw [h.freshObject o ho] at hcore
      cases hcore
  · exact owners_setCore_none (by rw [hcore]; rfl) rfl

private theorem Owned.take (h : v.Owned) {holder : Option ThreadId} (hcore : v.core o = .mutex 0 holder)
    (halive : v.status t ≠ .dead) :
    ((v.setCore o (.mutex 1 (some t))).setHeldMutexes t ((v.heldMutexes t).insert o)).Owned := by
  have hnone : holder = none := by
    have hiff := (h.count o 0 holder hcore).2
    cases holder with
    | none => rfl
    | some u => exact absurd (hiff.mpr rfl) (by decide)
  subst hnone
  have hself : (v.setCore o (.mutex 1 (some t))).core o = .mutex 1 (some t) := update_self ..
  have hother : ∀ o', o' ≠ o → (v.setCore o (.mutex 1 (some t))).core o' = v.core o' :=
    fun o' ho' => update_of_ne ho' ..
  have hheld : ∀ o' u, o' ∈ update v.heldMutexes t ((v.heldMutexes t).insert o) u ↔
      (o' = o ∧ u = t) ∨ o' ∈ v.heldMutexes u := by
    intro o' u
    by_cases hu : u = t
    · rw [hu, update_self, List.mem_insert_iff]
      simp
    · simp [hu]
  constructor
  · intro o' c holder hc
    by_cases ho : o' = o
    · subst ho
      have hc := hself.symm.trans hc
      cases hc
      exact ⟨by decide, by simp⟩
    · exact h.count o' c holder ((hother o' ho).symm.trans hc)
  · intro o' u c hc
    refine (hheld o' u).mpr ?_
    by_cases ho : o' = o
    · subst ho
      have hc := hself.symm.trans hc
      cases hc
      exact .inl ⟨rfl, rfl⟩
    · exact .inr (h.held o' u c ((hother o' ho).symm.trans hc))
  · intro o' u ho' hu
    rcases (hheld o' u).mp ho' with ⟨rfl, rfl⟩ | ho'
    · exact ⟨1, hself⟩
    · obtain ⟨c, hc⟩ := h.holder o' u ho' hu
      have ho : o' ≠ o := by
        rintro rfl
        rw [hcore] at hc
        cases hc
      exact ⟨c, (hother o' ho).trans hc⟩
  · intro o' u ho'
    by_cases ho : o' = o
    · subst ho
      exact ⟨1, some t, hself⟩
    · rcases (hheld o' u).mp ho' with ⟨rfl, -⟩ | ho'
      · exact absurd rfl ho
      · obtain ⟨c, holder, hc⟩ := h.mutex o' u ho'
        exact ⟨c, holder, (hother o' ho).trans hc⟩
  · intro u
    show (update v.heldMutexes t ((v.heldMutexes t).insert o) u).Nodup
    rw [update_apply]
    split
    · exact (h.nodup t).insert
    · exact h.nodup u
  · intro o' ho'
    have ho : o' ≠ o := by
      rintro rfl
      rw [h.freshObject o' ho'] at hcore
      cases hcore
    exact (hother o' ho).trans (h.freshObject o' ho')
  · intro u hu
    have hne : u ≠ t := by
      rintro rfl
      exact halive (h.freshThread u hu).1
    exact ⟨(h.freshThread u hu).1, (update_of_ne hne ..).trans (h.freshThread u hu).2⟩

private theorem Owned.recount (h : v.Owned) {lockCount' : Int} (hcore : v.core o = .mutex lockCount (some t))
    (hpos : 0 < lockCount') : (v.setCore o (.mutex lockCount' (some t))).Owned := by
  have hself : (v.setCore o (.mutex lockCount' (some t))).core o = .mutex lockCount' (some t) :=
    update_self ..
  have hother : ∀ o', o' ≠ o → (v.setCore o (.mutex lockCount' (some t))).core o' = v.core o' :=
    fun o' ho' => update_of_ne ho' ..
  have hheld := h.held o t lockCount hcore
  constructor
  · intro o' c holder hc
    by_cases ho : o' = o
    · subst ho
      have hc := hself.symm.trans hc
      cases hc
      exact ⟨le_of_lt hpos, by simp [hpos]⟩
    · exact h.count o' c holder ((hother o' ho).symm.trans hc)
  · intro o' u c hc
    by_cases ho : o' = o
    · subst ho
      have hc := hself.symm.trans hc
      cases hc
      exact hheld
    · exact h.held o' u c ((hother o' ho).symm.trans hc)
  · intro o' u ho' hu
    obtain ⟨c, hc⟩ := h.holder o' u ho' hu
    by_cases ho : o' = o
    · subst ho
      rw [hcore] at hc
      cases hc
      exact ⟨lockCount', hself⟩
    · exact ⟨c, (hother o' ho).trans hc⟩
  · intro o' u ho'
    by_cases ho : o' = o
    · subst ho
      exact ⟨lockCount', some t, hself⟩
    · obtain ⟨c, holder, hc⟩ := h.mutex o' u ho'
      exact ⟨c, holder, (hother o' ho).trans hc⟩
  · exact h.nodup
  · intro o' ho'
    have ho : o' ≠ o := by
      rintro rfl
      rw [h.freshObject o' ho'] at hcore
      cases hcore
    exact (hother o' ho).trans (h.freshObject o' ho')
  · exact h.freshThread

private theorem Owned.free (h : v.Owned) (objects : List ObjectId) (hcore : v.core o = .mutex lockCount (some t))
    (hobjects : ∀ o', o' ≠ o → (o' ∈ objects ↔ o' ∈ v.heldMutexes t)) (hnodup : objects.Nodup)
    (hgone : o ∈ objects → v.status t = .dead) :
    ((v.setCore o (.mutex 0 none)).setHeldMutexes t objects).Owned := by
  have hself : (v.setCore o (.mutex 0 none)).core o = .mutex 0 none := update_self ..
  have hother : ∀ o', o' ≠ o → (v.setCore o (.mutex 0 none)).core o' = v.core o' :=
    fun o' ho' => update_of_ne ho' ..
  have hheld : ∀ o' u, o' ≠ o → (o' ∈ update v.heldMutexes t objects u ↔ o' ∈ v.heldMutexes u) := by
    intro o' u ho
    by_cases hu : u = t
    · rw [hu, update_self]
      exact hobjects o' ho
    · rw [update_of_ne hu]
  constructor
  · intro o' c holder hc
    by_cases ho : o' = o
    · subst ho
      have hc := hself.symm.trans hc
      cases hc
      exact ⟨le_refl 0, by decide⟩
    · exact h.count o' c holder ((hother o' ho).symm.trans hc)
  · intro o' u c hc
    by_cases ho : o' = o
    · subst ho
      have hc := hself.symm.trans hc
      cases hc
    · exact (hheld o' u ho).mpr (h.held o' u c ((hother o' ho).symm.trans hc))
  · intro o' u ho' hu
    by_cases ho : o' = o
    · subst ho
      have ho' : o' ∈ update v.heldMutexes t objects u := ho'
      by_cases hut : u = t
      · rw [hut, update_self] at ho'
        exact absurd (hgone ho') (hut ▸ hu)
      · rw [update_of_ne hut] at ho'
        obtain ⟨c, hc⟩ := h.holder o' u ho' hu
        rw [hcore] at hc
        cases hc
        exact absurd rfl hut
    · obtain ⟨c, hc⟩ := h.holder o' u ((hheld o' u ho).mp ho') hu
      exact ⟨c, (hother o' ho).trans hc⟩
  · intro o' u ho'
    by_cases ho : o' = o
    · subst ho
      exact ⟨0, none, hself⟩
    · obtain ⟨c, holder, hc⟩ := h.mutex o' u ((hheld o' u ho).mp ho')
      exact ⟨c, holder, (hother o' ho).trans hc⟩
  · intro u
    show (update v.heldMutexes t objects u).Nodup
    rw [update_apply]
    split
    · exact hnodup
    · exact h.nodup u
  · intro o' ho'
    have ho : o' ≠ o := by
      rintro rfl
      rw [h.freshObject o' ho'] at hcore
      cases hcore
    exact (hother o' ho).trans (h.freshObject o' ho')
  · intro u hu
    have hne : u ≠ t := by
      rintro rfl
      have hmem := h.held o u lockCount hcore
      rw [(h.freshThread u hu).2] at hmem
      cases hmem
    exact ⟨(h.freshThread u hu).1, (update_of_ne hne ..).trans (h.freshThread u hu).2⟩

private theorem owners_setHeldMutexes (v : WaitView) (t : ThreadId) (objects : List ObjectId) :
    (v.setHeldMutexes t objects).owners = v.owners := rfl

private theorem Owned.acquired (h : v.Owned) {holder : Option ThreadId} (hcore : v.core o = .mutex lockCount holder)
    (hfree : lockCount ≤ 0 ∨ holder = some t) (halive : v.status t ≠ .dead) :
    (v.acquired o t lockCount holder).Owned ∧
      RecursiveLock.run v.owners [.acquire o t] = some (v.acquired o t lockCount holder).owners := by
  obtain ⟨hnonneg, hiff⟩ := h.count o lockCount holder hcore
  have howner : v.owners o = (ObjectCore.mutex lockCount holder).owner := by
    rw [← hcore]
    rfl
  unfold WaitView.acquired
  split
  · rename_i hzero
    subst hzero
    refine ⟨h.take hcore halive, ?_⟩
    have hnone : v.owners o = none := by
      rw [howner]
      cases holder with
      | none => rfl
      | some u => exact absurd (hiff.mpr rfl) (by decide)
    rw [owners_setHeldMutexes, owners_setCore]
    apply RecursiveLock.run_acquire
    rw [hnone]
    rfl
  · rename_i hzero
    have hpos : 0 < lockCount := by omega
    have hholder : holder = some t := by
      rcases hfree with hle | hholder
      · omega
      · exact hholder
    subst hholder
    refine ⟨h.recount hcore (by omega), ?_⟩
    rw [owners_setCore]
    apply RecursiveLock.run_acquire
    rw [howner]
    unfold ObjectCore.owner RecursiveLock.acquireBy
    dsimp only
    rw [if_pos rfl, show (lockCount + 1 - 1).toNat = (lockCount - 1).toNat + 1 by omega]

private theorem Owned.released (h : v.Owned) (hcore : v.core o = .mutex lockCount (some t)) (hpos : 0 < lockCount) :
    (v.released o t lockCount).Owned ∧
      RecursiveLock.run v.owners [.release o t] = some (v.released o t lockCount).owners := by
  have howner : v.owners o = some (t, (lockCount - 1).toNat) := by
    unfold owners
    rw [hcore]
    rfl
  unfold WaitView.released
  split
  · rename_i hzero
    constructor
    · refine h.free _ hcore (fun o' ho' => List.mem_erase_of_ne ho') ((h.nodup t).erase o) fun hmem => ?_
      exact absurd hmem (h.nodup t).not_mem_erase
    · rw [owners_setHeldMutexes, owners_setCore]
      apply RecursiveLock.run_release
      rw [howner, hzero]
      exact if_pos rfl
  · rename_i hzero
    refine ⟨h.recount hcore (by omega), ?_⟩
    rw [owners_setCore]
    apply RecursiveLock.run_release
    obtain ⟨n, hn⟩ : ∃ n : Nat, lockCount = n + 2 := ⟨(lockCount - 2).toNat, by omega⟩
    rw [howner, show (lockCount - 1).toNat = n + 1 by omega]
    unfold ObjectCore.owner RecursiveLock.releaseBy
    dsimp only
    rw [if_pos rfl, show (lockCount - 1 - 1).toNat = n by omega]

theorem Owned.step {e : WaitEvent} (h : v.Owned) (hstep : ViewStep v e v') :
    v'.Owned ∧ RecursiveLock.run v.owners e.lockEvents = some v'.owners := by
  cases hstep with
  | moves hold hnew => exact ⟨h.setStatus _ fun hdead => absurd hdead hold.2, rfl⟩
  | acquire hcore hfree halive => exact h.acquired hcore hfree halive
  | release hcore hpos halive => exact h.released hcore hpos
  | @abandon o t lockCount hdead hheld hcore =>
    constructor
    · have hfree := h.free (v.heldMutexes t) hcore (fun _ _ => Iff.rfl) (h.nodup t) fun _ => hdead
      unfold WaitView.setHeldMutexes at hfree
      rwa [show update (v.setCore o (.mutex 0 none)).heldMutexes t (v.heldMutexes t) = v.heldMutexes from
        update_eq_self t v.heldMutexes] at hfree
    · rw [owners_setCore]
      rfl
  | @forget t hdead hnone =>
    refine ⟨⟨h.count, ?_, ?_, ?_, ?_, h.freshObject, ?_⟩, rfl⟩
    · intro o u c hc
      have hu : u ≠ t := by
        rintro rfl
        exact hnone o (h.held o u c hc) c hc
      show o ∈ update v.heldMutexes t [] u
      rw [update_of_ne hu]
      exact h.held o u c hc
    · intro o u ho hu
      have hne : u ≠ t := by
        rintro rfl
        exact hu hdead
      exact h.holder o u ((update_of_ne hne .. : update v.heldMutexes t [] u = _) ▸ ho) hu
    · intro o u ho
      by_cases hu : u = t
      · subst hu
        have ho : o ∈ update v.heldMutexes u [] u := ho
        rw [update_self] at ho
        cases ho
      · exact h.mutex o u ((update_of_ne hu .. : update v.heldMutexes t [] u = _) ▸ ho)
    · intro u
      show (update v.heldMutexes t [] u).Nodup
      rw [update_apply]
      split
      · exact List.nodup_nil
      · exact h.nodup u
    · intro u hu
      refine ⟨(h.freshThread u hu).1, ?_⟩
      show update v.heldMutexes t [] u = []
      rw [update_apply]
      split
      · rfl
      · exact (h.freshThread u hu).2
  | @request o t pending handling hcore hrunning =>
    have hstatus : (v.setStatus t .waitIPC).Owned := h.setStatus _ fun hdead => by simp [hrunning] at hdead
    obtain ⟨howned, howners⟩ := hstatus.setSession hcore
    exact ⟨howned, congrArg some howners.symm⟩
  | accept hcore =>
    obtain ⟨howned, howners⟩ := h.setSession hcore
    exact ⟨howned, congrArg some howners.symm⟩
  | reply hcore =>
    obtain ⟨howned, howners⟩ := h.setSession hcore
    exact ⟨howned.setStatus _ fun hdead => by rw [show v.status _ = .dead from hdead]; rfl,
      congrArg some howners.symm⟩
  | drop hcore =>
    obtain ⟨howned, howners⟩ := h.setSession hcore
    exact ⟨howned, congrArg some howners.symm⟩
  | close hcore =>
    obtain ⟨howned, howners⟩ := h.setSession hcore
    exact ⟨howned, congrArg some howners.symm⟩
  | hleRequest hrunning =>
    exact ⟨h.setStatus .waitIPC fun hdead => by simp [hrunning] at hdead, rfl⟩
  | expire hwait => exact ⟨h.setStatus .ready fun hdead => by simp [hwait] at hdead, rfl⟩
  | die => exact ⟨h.setStatus .dead fun _ => rfl, rfl⟩
  | @create core hfresh =>
    have hplain := h.freshObject v.nextObjectId (le_refl _)
    constructor
    · refine h.setCore ?_ ?_ (Nat.le_succ _) fun hle => absurd hle (Nat.not_succ_le_self _)
      · intro c holder hc
        rw [hplain] at hc
        cases hc
      · intro c holder hc
        rcases hfresh with rfl | rfl | ⟨client, rfl⟩ <;> cases hc
        exact ⟨rfl, rfl⟩
    · have howner : core.owner = none := by
        rcases hfresh with rfl | rfl | ⟨client, rfl⟩ <;> rfl
      exact congrArg some (owners_setCore_none (by rw [hplain]; rfl) howner).symm
  | createThread =>
    have hdead := (h.freshThread v.nextThreadId (le_refl _)).2
    refine ⟨⟨h.count, h.held, ?_, h.mutex, h.nodup, h.freshObject, ?_⟩, rfl⟩
    · intro o u ho hu
      have hne : u ≠ v.nextThreadId := by
        rintro rfl
        have ho : o ∈ v.heldMutexes v.nextThreadId := ho
        rw [hdead] at ho
        cases ho
      exact h.holder o u ho ((update_of_ne hne .. : update v.status _ _ u = _) ▸ hu)
    · intro u hu
      have hlt : v.nextThreadId < u := hu
      have hne : u ≠ v.nextThreadId := Nat.ne_of_gt hlt
      obtain ⟨hstatus, hlist⟩ := h.freshThread u (Nat.le_of_lt hlt)
      exact ⟨(update_of_ne hne ..).trans hstatus, hlist⟩

/-- Threads that have ended hold no mutexes, apart from one that is being stopped. -/
def Settled (x : Option ThreadId) (v : WaitView) : Prop := ∀ t, x ≠ some t → v.status t = .dead → v.heldMutexes t = []

theorem Settled.step {x : Option ThreadId} {e : WaitEvent} (h : v.Settled x) (hstep : ViewStep v e v')
    (hdie : ∀ t, e = .die t → x = some t) : v'.Settled x := by
  intro u hx hu
  have hother : ∀ t status, status ≠ ThreadStatus.dead → update v.status t status u = .dead →
      v.status u = .dead := by
    intro t status hstatus hu
    rw [update_apply] at hu
    split at hu
    · exact absurd hu hstatus
    · exact hu
  cases hstep with
  | @moves t status hold hnew => exact h u hx (hother t status hnew.2 hu)
  | @acquire o t lockCount holder hcore hfree halive =>
    unfold WaitView.acquired at hu ⊢
    split at hu
    · have hne : u ≠ t := by
        rintro rfl
        exact halive hu
      rw [if_pos ‹_›]
      exact (update_of_ne hne ..).trans (h u hx hu)
    · rw [if_neg ‹_›]
      exact h u hx hu
  | @release o t lockCount hcore hpos halive =>
    unfold WaitView.released at hu ⊢
    split at hu
    · have hne : u ≠ t := by
        rintro rfl
        exact halive hu
      rw [if_pos ‹_›]
      exact (update_of_ne hne ..).trans (h u hx hu)
    · rw [if_neg ‹_›]
      exact h u hx hu
  | abandon hdead hheld hcore => exact h u hx hu
  | @forget t hdead hnone =>
    show update v.heldMutexes t [] u = []
    rw [update_apply]
    split
    · rfl
    · exact h u hx hu
  | @request o t pending handling hcore hrunning => exact h u hx (hother t .waitIPC (by decide) hu)
  | accept hcore => exact h u hx hu
  | @reply o t pending hcore =>
    refine h u hx ?_
    have hu : update v.status t (resumedStatus (v.status t)) u = .dead := hu
    rw [update_apply] at hu
    split at hu
    · rename_i heq
      rw [heq]
      cases hstatus : v.status t <;> rw [hstatus] at hu <;> cases hu
    · exact hu
  | drop hcore => exact h u hx hu
  | close hcore => exact h u hx hu
  | @hleRequest t hrunning => exact h u hx (hother t .waitIPC (by decide) hu)
  | @expire t hwait => exact h u hx (hother t .ready (by decide) hu)
  | @die t =>
    have hne : u ≠ t := by
      rintro rfl
      exact hx (hdie u rfl)
    exact h u hx ((update_of_ne hne ..).symm.trans hu)
  | create hfresh => exact h u hx hu
  | createThread => exact h u hx (hother v.nextThreadId .ready (by decide) hu)

theorem Owned.holds (h : v.Owned) (hsettled : v.Settled none) (t : ThreadId) : v.Holds t := by
  refine ⟨h.nodup t, fun o ho => ?_⟩
  have halive : v.status t ≠ .dead := by
    intro hdead
    rw [hsettled t nofun hdead] at ho
    cases ho
  obtain ⟨lockCount, hcore⟩ := h.holder o t ho halive
  exact ⟨lockCount, hcore, (h.count o lockCount _ hcore).2.mpr rfl⟩

end WaitView

namespace ViewRun

variable {v v' : WaitView} {events : List WaitEvent}

theorem owned (h : ViewRun v events v') (hv : v.Owned) :
    v'.Owned ∧ RecursiveLock.run v.owners (events.flatMap WaitEvent.lockEvents) = some v'.owners := by
  induction h with
  | nil => exact ⟨hv, rfl⟩
  | cons hstep _ ih =>
    obtain ⟨howned, hone⟩ := hv.step hstep
    obtain ⟨howned', hrest⟩ := ih howned
    refine ⟨howned', ?_⟩
    rw [List.flatMap_cons, RecursiveLock.run_append, hone]
    exact hrest

theorem settled {x : Option ThreadId} (h : ViewRun v events v') (hv : v.Settled x)
    (hdie : ∀ t, .die t ∈ events → x = some t) : v'.Settled x := by
  refine h.keeps hv fun v e v' he hstep hv => hv.step hstep fun t ht => hdie t ?_
  rw [← ht]
  exact he

end ViewRun

private theorem filter_lockEvents (events : List WaitEvent) :
    (events.flatMap WaitEvent.lockEvents).filter (fun e => !e.acquires) =
      (events.filter fun e => !e.isWakeup).flatMap WaitEvent.lockEvents := by
  induction events with
  | nil => rfl
  | cons e events ih =>
    rw [List.flatMap_cons, List.filter_append, ih, List.filter_cons]
    cases e <;> rfl

namespace WaitKernel

variable {s s' : WaitKernel} {o : ObjectId} {t : ThreadId} {op : Op} {ops : List Op}

def owners (s : WaitKernel) : Owners ObjectId ThreadId := s.view.owners

/-- What an operation does to locks, apart from acquiring them. -/
def lockEffects (s : WaitKernel) : Op → List (Event ObjectId ThreadId)
  | .releaseMutex t o =>
    if s.calls t [o] ∧ (s.owners o).map Prod.fst = some t then [.release o t] else []
  | .stop o =>
    match s.object o with
    | .thread t => (s.heldMutexes t).map .abandon
    | _ => []
  | _ => []

inductive LockRun : WaitKernel → List Op → List (Event ObjectId ThreadId) → WaitKernel → Prop where
  | nil {s : WaitKernel} : LockRun s [] [] s
  | cons {s s' s'' : WaitKernel} {op : Op} {ops : List Op} {events events' : List (Event ObjectId ThreadId)}
      (hexec : s.exec op = .ok s') (hrun : RecursiveLock.run s.owners events = some s'.owners)
      (heffects : events.filter (fun e => !e.acquires) = s.lockEffects op) (hrest : LockRun s' ops events' s'') :
      LockRun s (op :: ops) (events ++ events') s''

theorem LockRun.run {events : List (Event ObjectId ThreadId)} (h : LockRun s ops events s') :
    RecursiveLock.run s.owners events = some s'.owners := by
  induction h with
  | nil => rfl
  | cons _ hrun _ _ ih =>
    rw [RecursiveLock.run_append, hrun]
    exact ih

structure MutexesOwned (s : WaitKernel) : Prop where
  owned : s.view.Owned
  settled : s.view.Settled none

theorem MutexesOwned.count {lockCount : Int} {priority : Nat} {holder : Option ThreadId} (h : s.MutexesOwned)
    (hobject : s.object o = .mutex lockCount priority holder) : 0 ≤ lockCount ∧ (0 < lockCount ↔ holder.isSome) := by
  apply h.owned.count o
  show core (s.object o) = _
  rw [hobject]
  rfl

theorem MutexesOwned.owner {lockCount : Int} {priority : Nat} {holder : Option ThreadId} (h : s.MutexesOwned)
    (hobject : s.object o = .mutex lockCount priority holder) :
    (s.owners o).map Prod.fst = holder ∧ (RecursiveLock.holds (s.owners o) : Int) = lockCount := by
  obtain ⟨hnonneg, hiff⟩ := h.count hobject
  have howner : s.owners o = (ObjectCore.mutex lockCount holder).owner := by
    show (core (s.object o)).owner = _
    rw [hobject]
    rfl
  rw [howner]
  cases holder with
  | none =>
    have hzero : ¬0 < lockCount := fun hpos => by simpa using hiff.mp hpos
    refine ⟨rfl, ?_⟩
    show ((0 : Nat) : Int) = lockCount
    omega
  | some t =>
    have hpos : 0 < lockCount := hiff.mpr rfl
    refine ⟨rfl, ?_⟩
    show (((lockCount - 1).toNat + 1 : Nat) : Int) = lockCount
    omega

theorem MutexesOwned.mem_heldMutexes {lockCount : Int} {priority : Nat} {holder : Option ThreadId}
    (h : s.MutexesOwned) (hobject : s.object o = .mutex lockCount priority holder) (t : ThreadId) :
    o ∈ s.heldMutexes t ↔ holder = some t := by
  have hcore : s.view.core o = .mutex lockCount holder := by
    show core (s.object o) = _
    rw [hobject]
    rfl
  constructor
  · intro ho
    obtain ⟨c, hc, -⟩ := (h.owned.holds h.settled t).holder o ho
    rw [hcore] at hc
    cases hc
    rfl
  · rintro rfl
    exact h.owned.held o t lockCount hcore

private theorem die_mem_effects (h : .die t ∈ s.effects op) : ∃ o, op = .stop o ∧ s.object o = .thread t := by
  unfold effects at h
  cases op with
  | stop o =>
    dsimp only at h
    unfold stopEffects at h
    split at h
    · rename_i u hobject
      rw [List.mem_append, List.mem_cons, List.mem_map] at h
      rcases h with (h | ⟨o', -, h⟩) | h
      · cases h
        exact ⟨o, rfl, hobject⟩
      · cases h
      · exact absurd (List.mem_singleton.mp h) (by simp)
    · cases h
  | replyAndReceive t objects replyTarget =>
    cases replyTarget with
    | none => cases h
    | some o =>
      dsimp only at h
      unfold replyEffects at h
      split at h
      · split at h <;> simp at h
      · cases h
  | sendSyncRequest t o handling =>
    dsimp only at h
    unfold requestEffects at h
    split at h
    · split at h
      · cases handling <;> simp at h
      · cases h
    · cases h
  | closeClient o =>
    dsimp only at h
    unfold closeEffects at h
    split at h <;> simp at h
  | releaseMutex t o =>
    dsimp only at h
    unfold releaseEffects at h
    split at h
    · split at h
      · split at h <;> simp at h
      · cases h
    · cases h
  | _ =>
    dsimp only at h
    first
      | cases h
      | (split at h <;> simp at h)

private theorem stop_heldMutexes (h : s.stop o = .ok s') (hobject : s.object o = .thread t) :
    s'.heldMutexes t = [] := by
  unfold stop at h
  rw [hobject] at h
  obtain ⟨s₁, -, h⟩ := ok_of_bind h
  obtain ⟨s₂, -, h⟩ := ok_of_bind h
  cases h
  exact update_self ..

private theorem lockEvents_effects (h : s.MutexesOwned) (op : Op) :
    (s.effects op).flatMap WaitEvent.lockEvents = s.lockEffects op := by
  unfold effects lockEffects
  cases op with
  | stop o =>
    dsimp only
    unfold stopEffects
    cases hobject : s.object o with
    | thread t =>
      rw [List.flatMap_append, List.flatMap_cons, List.flatMap_map]
      simp [WaitEvent.lockEvents, List.map_eq_flatMap]
    | _ => rfl
  | releaseMutex t o =>
    dsimp only
    unfold releaseEffects
    by_cases hcalls : s.calls t [o] = true
    · rw [if_pos hcalls]
      cases hobject : s.object o with
      | mutex lockCount priority holder =>
        obtain ⟨howner, -⟩ := h.owner hobject
        obtain ⟨-, hiff⟩ := h.count hobject
        rw [howner]
        cases holder with
        | none => simp
        | some u =>
          have hpos := hiff.mpr rfl
          dsimp only
          by_cases hu : u = t
          · rw [if_pos ⟨hu, hpos⟩, if_pos ⟨hcalls, congrArg some hu⟩]
            rfl
          · rw [if_neg fun hboth => hu hboth.1, if_neg fun hboth => hu (Option.some.inj hboth.2)]
            rfl
      | _ =>
        have hnone : s.owners o = none := by
          show (core (s.object o)).owner = none
          rw [hobject]
          rfl
        rw [hnone]
        simp
    · rw [if_neg hcalls, if_neg fun hboth => hcalls hboth.1]
      rfl
  | replyAndReceive t objects replyTarget =>
    cases replyTarget with
    | none => rfl
    | some o =>
      dsimp only
      unfold replyEffects
      split
      · split <;> rfl
      · rfl
  | sendSyncRequest t o handling =>
    dsimp only
    unfold requestEffects
    split
    · split
      · cases handling <;> rfl
      · rfl
    · rfl
  | closeClient o =>
    dsimp only
    unfold closeEffects
    split <;> rfl
  | createObject object =>
    dsimp only
    split <;> rfl
  | createMutex t initialLocked =>
    dsimp only
    split <;> rfl
  | createThread priority =>
    dsimp only
    split <;> rfl
  | timeout t =>
    dsimp only
    split <;> rfl
  | _ => rfl

theorem MutexesOwned.exec (h : s.MutexesOwned) (hexec : s.exec op = .ok s') :
    s'.MutexesOwned ∧ ∃ events, RecursiveLock.run s.owners events = some s'.owners ∧
      events.filter (fun e => !e.acquires) = s.lockEffects op := by
  obtain ⟨events, hrun, hevents⟩ := exec_run (h.owned.holds h.settled) hexec
  obtain ⟨howned, howners⟩ := hrun.owned h.owned
  have hdie : ∀ t, .die t ∈ events → ∃ o, op = .stop o ∧ s.object o = .thread t := by
    intro t ht
    apply die_mem_effects
    rw [← hevents]
    exact List.mem_filter.mpr ⟨ht, rfl⟩
  refine ⟨⟨howned, ?_⟩, events.flatMap WaitEvent.lockEvents, howners, ?_⟩
  · by_cases hstop : ∃ o t, op = .stop o ∧ s.object o = .thread t
    · obtain ⟨o, t, rfl, hobject⟩ := hstop
      have hsettled := hrun.settled (x := some t) (fun u _ => h.settled u nofun) fun u hu => by
        obtain ⟨o', ho', hobject'⟩ := hdie u hu
        cases ho'
        rw [hobject] at hobject'
        cases hobject'
        rfl
      intro u _ hu
      by_cases hut : u = t
      · subst hut
        exact stop_heldMutexes hexec hobject
      · exact hsettled u (fun heq => hut (Option.some.inj heq).symm) hu
    · refine hrun.settled h.settled fun u hu => ?_
      obtain ⟨o, rfl, hobject⟩ := hdie u hu
      exact absurd ⟨o, u, rfl, hobject⟩ hstop
  · rw [filter_lockEvents, hevents, lockEvents_effects h]

theorem mutexesOwned_init : MutexesOwned {} := by
  refine ⟨⟨?_, ?_, ?_, ?_, ?_, ?_, ?_⟩, fun _ _ _ => rfl⟩
  · intro o lockCount holder hcore
    cases hcore
  · intro o t lockCount hcore
    cases hcore
  · intro o t ho
    cases ho
  · intro o t ho
    cases ho
  · intro t
    exact List.nodup_nil
  · intro o _
    rfl
  · intro t _
    exact ⟨rfl, rfl⟩

theorem MutexesOwned.foldlM_exec (h : s.MutexesOwned) (hops : ops.foldlM WaitKernel.exec s = .ok s') :
    s'.MutexesOwned ∧ ∃ events, LockRun s ops events s' := by
  induction ops generalizing s with
  | nil =>
    cases hops
    exact ⟨h, [], .nil⟩
  | cons op ops ih =>
    obtain ⟨s₁, hexec, hops⟩ := ok_of_bind hops
    obtain ⟨howned, events, hrun, heffects⟩ := h.exec hexec
    obtain ⟨howned', events', hrest⟩ := ih howned hops
    exact ⟨howned', events ++ events', .cons hexec hrun heffects hrest⟩

theorem acquire_mutex {lockCount : Int} {priority : Nat} {holder : Option ThreadId} (h : s.MutexesOwned)
    (hobject : s.object o = .mutex lockCount priority holder) (hacquire : s.acquire o t = .ok s') :
    (holder = none ∨ holder = some t) ∧ ∃ priority', s'.object o = .mutex (lockCount + 1) priority' (some t) := by
  obtain ⟨hnonneg, hiff⟩ := h.count hobject
  unfold acquire at hacquire
  simp only [hobject] at hacquire
  split at hacquire
  · cases hacquire
  · rename_i hwait
    have hfree : lockCount = 0 ∨ holder = some t := by
      simp only [shouldWait, hobject, Bool.and_eq_true, decide_eq_true_eq, not_and, not_not] at hwait
      by_cases hpos : lockCount > 0
      · exact .inr (hwait hpos)
      · exact .inl (by omega)
    split at hacquire
    · rename_i hzero
      cases hacquire
      have hnone : holder = none := by
        cases holder with
        | none => rfl
        | some u => exact absurd (hiff.mpr rfl) (by omega)
      exact ⟨.inl hnone, s.currentPriority t, update_self ..⟩
    · rename_i hzero
      have hholder : holder = some t := hfree.resolve_left hzero
      subst hholder
      cases hacquire
      exact ⟨.inr rfl, priority, update_self ..⟩

theorem releaseMutex_other {lockCount : Int} {priority : Nat} {holder : Option ThreadId}
    (hobject : s.object o = .mutex lockCount priority holder) (hother : holder ≠ some t) :
    s.exec (.releaseMutex t o) = .ok s := by
  show (if s.calls t [o] then s.releaseMutex t o else .ok s) = _
  have hrelease : s.releaseMutex t o = .ok s := by
    unfold releaseMutex
    rw [hobject]
    cases holder with
    | none => rfl
    | some u => exact if_pos (.inl fun hu => hother (congrArg some hu))
  rw [hrelease, ite_self]

/-- In every run the lock count of a mutex is positive if and only if it has a holder, the mutex is in the list of its
holder and in no other list, a thread acquires a mutex only if it is free or its own, and a release by another thread
than the holder changes nothing.  In every part of a run the owners change as those of recursive locks do, where a lock
loses its owner by a release of its own or by the end of the owner; the lock count of a mutex whose owner does not end
is the number of times that it has been acquired and not released. -/
theorem run_mutexOwnership (h : run ops = .ok s) :
    (∀ o lockCount priority holder, s.object o = .mutex lockCount priority holder →
      (0 < lockCount ↔ holder.isSome) ∧
      (∀ t, o ∈ s.heldMutexes t ↔ holder = some t) ∧
      (∀ t s', s.acquire o t = .ok s' →
        (holder = none ∨ holder = some t) ∧ ∃ priority', s'.object o = .mutex (lockCount + 1) priority' (some t)) ∧
      ∀ t, holder ≠ some t → s.exec (.releaseMutex t o) = .ok s) ∧
    ∀ ops' s', ops'.foldlM WaitKernel.exec s = .ok s' →
      ∃ events, LockRun s ops' events s' ∧
        ∀ o lockCount priority holder lockCount' priority' holder',
          s.object o = .mutex lockCount priority holder → s'.object o = .mutex lockCount' priority' holder' →
          .abandon o ∉ events →
          lockCount' + events.countP (RecursiveLock.isRelease o) =
            lockCount + events.countP (RecursiveLock.isAcquire o) := by
  obtain ⟨howned, -⟩ := mutexesOwned_init.foldlM_exec h
  constructor
  · intro o lockCount priority holder hobject
    exact ⟨(howned.count hobject).2, howned.mem_heldMutexes hobject, fun t s' => acquire_mutex howned hobject,
      fun t => releaseMutex_other hobject⟩
  · intro ops' s' hops
    obtain ⟨howned', events, hrun⟩ := howned.foldlM_exec hops
    refine ⟨events, hrun, ?_⟩
    intro o lockCount priority holder lockCount' priority' holder' hobject hobject' hkept
    have hholds := RecursiveLock.run_holds hrun.run hkept
    rw [← (howned.owner hobject).2, ← (howned'.owner hobject').2]
    exact_mod_cast hholds

private def recursiveOps : List Op :=
  [.createThread 30, .createThread 31, .changeStatus 0 .running, .createMutex 0 true, .waitSynchronization1 0 2 (-1),
    .changeStatus 1 .running, .waitSynchronization1 1 2 (-1)]

theorem run_mutexOwnership_recursive :
    ∃ s, run recursiveOps = .ok s ∧ s.object 2 = .mutex 2 31 (some 0) ∧ s.waitingThreads 2 = [1] ∧
      s.exec (.releaseMutex 1 2) = .ok s := by
  refine ⟨_, rfl, rfl, rfl, ?_⟩
  exact ((run_mutexOwnership (show run recursiveOps = .ok _ from rfl)).1 2 2 31 (some 0) rfl).2.2.2 1 (by decide)

end WaitKernel

end SweepDSEmu
