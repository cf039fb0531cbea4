import SweepDSEmu.Kernel.MutexOwnership
import SweepDSEmu.Lib.RequestCycle

/-!
# Requests of server sessions

A thread that sends a request to a session without a handler of its own waits until a server thread takes the request
and replies.  The session keeps the threads whose requests are pending, and the one whose request is handled.

* A request is translated for the server when it is taken.  A wakeup by a timeout is scheduled for requests that a
  handler answers, and for no others.
* `Represents` says that the sessions store exactly the threads that wait for them.
* What a step does to the requests is an event of a request cycle, so every run in which no stored thread is stopped is
  a run of request cycles.
* `Stop` takes its thread out of the waiting lists of objects, and not out of a session: `run_represents_iff`.
-/

namespace SweepDSEmu

open RequestCycle (Waits StoredAt)

open Function

def WaitEvent.requestEvents : WaitEvent → List (RequestCycle.Event ObjectId ThreadId)
  | .request o t => [.request o t]
  | .accept o t => [.accept o t]
  | .reply o t => [.reply o t]
  | .hleRequest t => [.delay t]
  | .expire t | .die t => [.leave t]
  | _ => []

namespace WaitView

/-- A session stores the threads that wait for it, each once. -/
structure Serves (waits : Waits ObjectId ThreadId) (o : ObjectId) (pending : List ThreadId)
    (handling : Option ThreadId) : Prop where
  nodup : pending.Nodup
  pending : ∀ t, t ∈ pending ↔ waits t = some (.pending o)
  handling : ∀ t, handling = some t ↔ waits t = some (.handling o)

structure Represents (v : WaitView) (waits : Waits ObjectId ThreadId) : Prop where
  waiting : ∀ t, v.status t = .waitIPC ↔ waits t ≠ none
  serves : ∀ o client pending handling, v.core o = .session client pending handling → Serves waits o pending handling
  session : ∀ o t, StoredAt waits o t → ∃ pending handling, v.core o = .session true pending handling

def Allowed (waits : Waits ObjectId ThreadId) : WaitEvent → Prop
  | .expire t | .die t => ∀ o, ¬StoredAt waits o t
  | .close o => ∀ t, ¬StoredAt waits o t
  | _ => True

variable {v v' : WaitView} {waits waits' : Waits ObjectId ThreadId} {o : ObjectId} {t : ThreadId}

private theorem Represents.setStatus (h : v.Represents waits) {status : ThreadStatus} (hold : v.status t ≠ .waitIPC)
    (hnew : status ≠ .waitIPC) : (v.setStatus t status).Represents waits := by
  refine ⟨fun u => ?_, h.serves, h.session⟩
  show update v.status t status u = .waitIPC ↔ _
  rw [← h.waiting u, update_apply]
  split
  · rename_i hu
    rw [hu]
    exact iff_of_false hnew hold
  · rfl

private theorem Represents.setCore (h : v.Represents waits) {core : ObjectCore}
    (hold : ∀ client pending handling, v.core o ≠ .session client pending handling)
    (hnew : ∀ client pending handling, core ≠ .session client pending handling) :
    (v.setCore o core).Represents waits := by
  refine ⟨h.waiting, ?_, ?_⟩
  · intro o' client pending handling hcore
    by_cases ho : o' = o
    · subst ho
      exact absurd ((update_self ..).symm.trans hcore) (hnew client pending handling)
    · exact h.serves o' client pending handling ((update_of_ne ho ..).symm.trans hcore)
  · intro o' t ht
    obtain ⟨pending, handling, hcore⟩ := h.session o' t ht
    have ho : o' ≠ o := by
      rintro rfl
      exact hold _ _ _ hcore
    exact ⟨pending, handling, (update_of_ne ho ..).trans hcore⟩

variable {pending : List ThreadId} {phase : Option (RequestCycle.Phase ObjectId)}

private theorem Represents.setSession (h : v.Represents waits) {client : Bool}
    {handling : Option ThreadId} {status : ThreadId → ThreadStatus}
    (hwaiting : ∀ t, status t = .waitIPC ↔ waits' t ≠ none)
    (hother : ∀ o', o' ≠ o → ∀ t, (waits' t = some (.pending o') ↔ waits t = some (.pending o')) ∧
      (waits' t = some (.handling o') ↔ waits t = some (.handling o')))
    (hserves : Serves waits' o pending handling) (hclosed : client = false → ∀ t, ¬StoredAt waits' o t) :
    Represents { v.setCore o (.session client pending handling) with status := status } waits' := by
  refine ⟨hwaiting, ?_, ?_⟩
  · intro o' client' pending' handling' hcore
    by_cases ho : o' = o
    · subst ho
      have hcore := (update_self ..).symm.trans hcore
      cases hcore
      exact hserves
    · obtain ⟨hnodup, hpending, hhandling⟩ :=
        h.serves o' client' pending' handling' ((update_of_ne ho ..).symm.trans hcore)
      exact ⟨hnodup, fun t => (hpending t).trans (hother o' ho t).1.symm,
        fun t => (hhandling t).trans (hother o' ho t).2.symm⟩
  · intro o' t ht
    by_cases ho : o' = o
    · subst ho
      cases client with
      | true => exact ⟨pending, handling, update_self ..⟩
      | false => exact absurd ht (hclosed rfl t)
    · have ht' : StoredAt waits o' t := ht.imp (hother o' ho t).1.mp (hother o' ho t).2.mp
      obtain ⟨pending', handling', hcore⟩ := h.session o' t ht'
      exact ⟨pending', handling', (update_of_ne ho ..).trans hcore⟩

private theorem phase_other (hold : ¬StoredAt waits o t)
    (hnew : phase ≠ some (.pending o) ∧ phase ≠ some (.handling o)) (u : ThreadId) :
    (update waits t phase u = some (.pending o) ↔ waits u = some (.pending o)) ∧
      (update waits t phase u = some (.handling o) ↔ waits u = some (.handling o)) := by
  by_cases hu : u = t
  · subst hu
    rw [update_self]
    exact ⟨iff_of_false hnew.1 fun h => hold (.inl h), iff_of_false hnew.2 fun h => hold (.inr h)⟩
  · rw [update_of_ne hu]
    exact ⟨Iff.rfl, Iff.rfl⟩

private theorem waiting_update (h : v.Represents waits) {status : ThreadStatus} (hnew : status = .waitIPC ↔ phase ≠ none) (u : ThreadId) :
    update v.status t status u = .waitIPC ↔ update waits t phase u ≠ none := by
  rw [update_apply, update_apply]
  split
  · exact hnew
  · exact h.waiting u

private theorem Represents.setPhase (h : v.Represents waits) {status : ThreadStatus} (hold : ∀ o, ¬StoredAt waits o t)
    (hnew : ∀ o, phase ≠ some (.pending o) ∧ phase ≠ some (.handling o)) (hstatus : status = .waitIPC ↔ phase ≠ none) :
    (v.setStatus t status).Represents (update waits t phase) := by
  refine ⟨waiting_update h hstatus, ?_, ?_⟩
  · intro o client pending handling hcore
    obtain ⟨hnodup, hpending, hhandling⟩ := h.serves o client pending handling hcore
    exact ⟨hnodup, fun u => (hpending u).trans (phase_other (hold o) (hnew o) u).1.symm,
      fun u => (hhandling u).trans (phase_other (hold o) (hnew o) u).2.symm⟩
  · intro o u hu
    exact h.session o u (hu.imp (phase_other (hold o) (hnew o) u).1.mp (phase_other (hold o) (hnew o) u).2.mp)

private theorem Represents.none_of_ne (h : v.Represents waits) (ht : v.status t ≠ .waitIPC) : waits t = none := by
  by_contra hne
  exact ht ((h.waiting t).mpr hne)

private theorem not_storedAt_of_none (h : waits t = none) (o : ObjectId) : ¬StoredAt waits o t := by
  unfold StoredAt
  rw [h]
  simp

private theorem not_storedAt_of_ne (h : StoredAt waits o t) {o' : ObjectId} (ho : o' ≠ o) : ¬StoredAt waits o' t := by
  intro h'
  rcases h with h | h <;> rcases h' with h' | h' <;> rw [h] at h' <;> cases h' <;> exact ho rfl

private theorem Represents.request (h : v.Represents waits) {handling : Option ThreadId}
    (hcore : v.core o = .session true pending handling) (hrunning : v.status t = .running) :
    RequestCycle.run waits [.request o t] = some (update waits t (some (.pending o))) ∧
      ((v.setStatus t .waitIPC).setCore o (.session true (pending ++ [t]) handling)).Represents
        (update waits t (some (.pending o))) := by
  have hnone : waits t = none := h.none_of_ne (by rw [hrunning]; decide)
  obtain ⟨hnodup, hpending, hhandling⟩ := h.serves o true pending handling hcore
  constructor
  · apply RequestCycle.run_advance
    show RequestCycle.advance (waits t) _ = _
    rw [hnone]
    rfl
  · refine h.setSession (waiting_update h (by simp)) ?_ ⟨?_, ?_, ?_⟩ (by simp)
    · intro o' ho
      exact phase_other (not_storedAt_of_none hnone o') ⟨by simpa using Ne.symm ho, by simp⟩
    · rw [List.nodup_append]
      refine ⟨hnodup, List.nodup_singleton t, ?_⟩
      intro u hu u' hu' heq
      rw [← heq.trans (List.mem_singleton.mp hu'), (hpending u).mp hu] at hnone
      cases hnone
    · intro u
      rw [List.mem_append, List.mem_singleton, hpending]
      by_cases hu : u = t
      · subst hu
        simp
      · simp [hu]
    · intro u
      rw [hhandling]
      by_cases hu : u = t
      · subst hu
        simp [hnone]
      · rw [update_of_ne hu]

private theorem Represents.accept (h : v.Represents waits)
    (hcore : v.core o = .session true (pending ++ [t]) none) :
    RequestCycle.run waits [.accept o t] = some (update waits t (some (.handling o))) ∧
      (v.setCore o (.session true pending (some t))).Represents (update waits t (some (.handling o))) := by
  obtain ⟨hnodup, hpending, hhandling⟩ := h.serves o true (pending ++ [t]) none hcore
  have hwait : waits t = some (.pending o) := (hpending t).mp (by simp)
  have hnot : t ∉ pending := by
    rw [List.nodup_append] at hnodup
    exact fun ht => hnodup.2.2 t ht t (by simp) rfl
  constructor
  · apply RequestCycle.run_advance
    show RequestCycle.advance (waits t) _ = _
    rw [hwait]
    exact if_pos rfl
  · refine h.setSession ?_ ?_ ⟨(List.nodup_append.mp hnodup).1, ?_, ?_⟩ (by simp)
    · intro u
      rw [h.waiting u]
      by_cases hu : u = t
      · subst hu
        simp [hwait]
      · rw [update_of_ne hu]
    · intro o' ho
      exact phase_other (not_storedAt_of_ne (.inl hwait) ho) ⟨by simp, by simpa using Ne.symm ho⟩
    · intro u
      by_cases hu : u = t
      · subst hu
        simp [hnot]
      · rw [update_of_ne hu, ← hpending]
        simp [hu]
    · intro u
      by_cases hu : u = t
      · subst hu
        simp
      · rw [update_of_ne hu, ← hhandling]
        simp [Ne.symm hu]

private theorem Represents.reply (h : v.Represents waits) (hcore : v.core o = .session true pending (some t)) :
    RequestCycle.run waits [.reply o t] = some (update waits t none) ∧
      ((v.setCore o (.session true pending none)).setStatus t (resumedStatus (v.status t))).Represents
        (update waits t none) := by
  obtain ⟨hnodup, hpending, hhandling⟩ := h.serves o true pending (some t) hcore
  have hwait : waits t = some (.handling o) := (hhandling t).mp rfl
  have hstatus : v.status t = .waitIPC := (h.waiting t).mpr (by simp [hwait])
  constructor
  · apply RequestCycle.run_advance
    show RequestCycle.advance (waits t) _ = _
    rw [hwait]
    exact if_pos rfl
  · refine h.setSession (waiting_update h ?_) ?_ ⟨hnodup, ?_, ?_⟩ (by simp)
    · rw [hstatus]
      simp [resumedStatus]
    · intro o' ho
      exact phase_other (not_storedAt_of_ne (.inr hwait) ho) ⟨by simp, by simp⟩
    · intro u
      rw [hpending]
      by_cases hu : u = t
      · subst hu
        simp [hwait]
      · rw [update_of_ne hu]
    · intro u
      by_cases hu : u = t
      · subst hu
        simp
      · rw [update_of_ne hu, ← hhandling]
        simp [Ne.symm hu]

private theorem advance_leave (h : ∀ o, ¬StoredAt waits o t) :
    RequestCycle.advance (waits t) (.leave t : RequestCycle.Event ObjectId ThreadId) = some none := by
  cases hwait : waits t with
  | none => rfl
  | some phase =>
    cases phase with
    | elsewhere => rfl
    | pending o => exact absurd (.inl hwait) (h o)
    | handling o => exact absurd (.inr hwait) (h o)

private theorem serves_nil (h : ∀ t, ¬StoredAt waits o t) : Serves waits o [] none := by
  refine ⟨List.nodup_nil, fun t => ?_, fun t => ?_⟩
  · exact iff_of_false List.not_mem_nil fun ht => h t (.inl ht)
  · exact iff_of_false (by simp) fun ht => h t (.inr ht)

private theorem core_ne_session {core : ObjectCore} {lockCount : Int} {holder : Option ThreadId}
    (hcore : core = .mutex lockCount holder) (client : Bool) (pending : List ThreadId) (handling : Option ThreadId) :
    core ≠ .session client pending handling := by
  rw [hcore]
  simp

theorem Represents.step {e : WaitEvent} (h : v.Represents waits) (howned : v.Owned) (hstep : ViewStep v e v')
    (hallowed : Allowed waits e) :
    ∃ waits', RequestCycle.run waits e.requestEvents = some waits' ∧ v'.Represents waits' := by
  cases hstep with
  | moves hold hnew => exact ⟨waits, rfl, h.setStatus hold.1 hnew.1⟩
  | @acquire o t lockCount holder hcore hfree halive =>
    refine ⟨waits, rfl, ?_⟩
    unfold WaitView.acquired
    split
    · have hset : (v.setCore o (.mutex (lockCount + 1) (some t))).Represents waits :=
        h.setCore (core_ne_session hcore) (core_ne_session rfl)
      exact ⟨hset.waiting, hset.serves, hset.session⟩
    · exact h.setCore (core_ne_session hcore) (core_ne_session rfl)
  | @release o t lockCount hcore hpos halive =>
    refine ⟨waits, rfl, ?_⟩
    unfold WaitView.released
    split
    · have hset : (v.setCore o (.mutex 0 none)).Represents waits :=
        h.setCore (core_ne_session hcore) (core_ne_session rfl)
      exact ⟨hset.waiting, hset.serves, hset.session⟩
    · exact h.setCore (core_ne_session hcore) (core_ne_session rfl)
  | abandon hdead hheld hcore => exact ⟨waits, rfl, h.setCore (core_ne_session hcore) (core_ne_session rfl)⟩
  | forget hdead hnone => exact ⟨waits, rfl, h.waiting, h.serves, h.session⟩
  | request hcore hrunning => exact ⟨_, h.request hcore hrunning⟩
  | accept hcore => exact ⟨_, h.accept hcore⟩
  | reply hcore => exact ⟨_, h.reply hcore⟩
  | @drop o pending handling hcore =>
    refine ⟨waits, rfl, ?_⟩
    have hhandling : handling = none := by
      rw [Option.eq_none_iff_forall_ne_some]
      intro t ht
      obtain ⟨pending', handling', hcore'⟩ := h.session o t (.inr (((h.serves o _ _ _ hcore).handling t).mp ht))
      rw [hcore] at hcore'
      cases hcore'
    subst hhandling
    unfold WaitView.setCore
    rw [← hcore, update_eq_self]
    exact h
  | @close o pending handling hcore =>
    refine ⟨waits, rfl, ?_⟩
    have hallowed : ∀ t, ¬StoredAt waits o t := hallowed
    exact h.setSession h.waiting (fun _ _ _ => ⟨Iff.rfl, Iff.rfl⟩) (serves_nil hallowed) fun _ => hallowed
  | @hleRequest t hrunning =>
    have hnone : waits t = none := h.none_of_ne (by rw [hrunning]; decide)
    refine ⟨update waits t (some .elsewhere), ?_, ?_⟩
    · apply RequestCycle.run_advance
      show RequestCycle.advance (waits t) _ = _
      rw [hnone]
      rfl
    · exact h.setPhase (not_storedAt_of_none hnone) (fun o => ⟨by simp, by simp⟩) (by simp)
  | @expire t hwait =>
    have hallowed : ∀ o, ¬StoredAt waits o t := hallowed
    refine ⟨update waits t none, ?_, h.setPhase hallowed (fun o => ⟨by simp, by simp⟩) (by simp)⟩
    exact RequestCycle.run_advance (advance_leave hallowed)
  | @die t =>
    have hallowed : ∀ o, ¬StoredAt waits o t := hallowed
    refine ⟨update waits t none, ?_, h.setPhase hallowed (fun o => ⟨by simp, by simp⟩) (by simp)⟩
    exact RequestCycle.run_advance (advance_leave hallowed)
  | @create core hfresh =>
    refine ⟨waits, rfl, ?_⟩
    have hplain := howned.freshObject v.nextObjectId (le_refl _)
    have hold : ∀ client pending handling, v.core v.nextObjectId ≠ .session client pending handling := by
      rw [hplain]
      simp
    rcases hfresh with rfl | rfl | ⟨client, rfl⟩
    · have hset : (v.setCore v.nextObjectId .plain).Represents waits := h.setCore hold (by simp)
      exact ⟨hset.waiting, hset.serves, hset.session⟩
    · have hset : (v.setCore v.nextObjectId (.mutex 0 none)).Represents waits := h.setCore hold (by simp)
      exact ⟨hset.waiting, hset.serves, hset.session⟩
    · have hnone : ∀ t, ¬StoredAt waits v.nextObjectId t := by
        intro t ht
        obtain ⟨pending, handling, hcore⟩ := h.session v.nextObjectId t ht
        exact hold _ _ _ hcore
      have hset := h.setSession h.waiting (fun _ _ _ => ⟨Iff.rfl, Iff.rfl⟩) (serves_nil hnone)
        fun (_ : client = false) => hnone
      exact ⟨hset.waiting, hset.serves, hset.session⟩
  | createThread =>
    have hdead := (howned.freshThread v.nextThreadId (le_refl _)).1
    have hset : (v.setStatus v.nextThreadId .ready).Represents waits := h.setStatus (by rw [hdead]; decide) (by decide)
    exact ⟨waits, rfl, hset.waiting, hset.serves, hset.session⟩

private theorem allowed_of_run {e e' : WaitEvent} (hrun : RequestCycle.run waits e.requestEvents = some waits')
    (he : ∀ o t, e ≠ .request o t) (h : Allowed waits e') : Allowed waits' e' := by
  have hstored : ∀ o t, StoredAt waits' o t → StoredAt waits o t := by
    intro o t
    cases e with
    | request o' t' => exact absurd rfl (he o' t')
    | accept o' t' | reply o' t' | hleRequest t' | expire t' | die t' =>
      refine RequestCycle.storedAt_of_step (RequestCycle.run_singleton waits _ ▸ hrun) ?_
      intro k u hk
      cases hk
    | _ =>
      cases hrun
      exact id
  cases e' with
  | expire t | die t => exact fun o ho => h o (hstored o t ho)
  | close o => exact fun t ht => h t (hstored o t ht)
  | _ => trivial

end WaitView

open WaitView (Allowed)

theorem ViewRun.represents {v v' : WaitView} {events : List WaitEvent} {waits : Waits ObjectId ThreadId}
    (h : ViewRun v events v') (howned : v.Owned) (hrep : v.Represents waits) (hallowed : ∀ e ∈ events, Allowed waits e)
    (hrequest : ∀ o t, .request o t ∈ events → ∀ waits', ∀ e ∈ events, Allowed waits' e) :
    ∃ waits', RequestCycle.run waits (events.flatMap WaitEvent.requestEvents) = some waits' ∧ v'.Represents waits' := by
  induction h generalizing waits with
  | nil => exact ⟨waits, rfl, hrep⟩
  | @cons v v₁ v' e events hstep _ ih =>
    obtain ⟨waits₁, hone, hrep₁⟩ := hrep.step howned hstep (hallowed e List.mem_cons_self)
    have hallowed₁ : ∀ e' ∈ events, Allowed waits₁ e' := by
      intro e' he'
      by_cases he : ∃ o t, e = .request o t
      · obtain ⟨o, t, rfl⟩ := he
        exact hrequest o t List.mem_cons_self waits₁ e' (List.mem_cons_of_mem _ he')
      · simp only [not_exists] at he
        exact WaitView.allowed_of_run hone he (hallowed e' (List.mem_cons_of_mem _ he'))
    obtain ⟨waits', hrest, hrep'⟩ := ih (howned.step hstep).1 hrep₁ hallowed₁ fun o t hot waits' e' he' =>
      hrequest o t (List.mem_cons_of_mem _ hot) waits' e' (List.mem_cons_of_mem _ he')
    refine ⟨waits', ?_, hrep'⟩
    rw [List.flatMap_cons, RequestCycle.run_append, hone]
    exact hrest

private theorem filter_requestEvents (events : List WaitEvent) :
    (events.flatMap WaitEvent.requestEvents).filter (fun e => !e.accepts) =
      (events.filter fun e => !e.isWakeup).flatMap WaitEvent.requestEvents := by
  induction events with
  | nil => rfl
  | cons e events ih =>
    rw [List.flatMap_cons, List.filter_append, ih, List.filter_cons]
    cases e <;> rfl

namespace WaitView

def stored (v : WaitView) (o : ObjectId) : List ThreadId :=
  match v.core o with
  | .session _ pending handling => pending ++ handling.toList
  | _ => []

variable {v v' : WaitView} {waits : Waits ObjectId ThreadId} {o : ObjectId} {t : ThreadId}

/-- The stored threads are those that have a request at the session. -/
theorem Represents.mem_stored (h : v.Represents waits) : t ∈ v.stored o ↔ StoredAt waits o t := by
  unfold stored
  constructor
  · intro ht
    split at ht
    · rename_i client pending handling hcore
      obtain ⟨-, hpending, hhandling⟩ := h.serves o client pending handling hcore
      rw [List.mem_append, Option.mem_toList] at ht
      exact ht.imp (hpending t).mp (hhandling t).mp
    · cases ht
  · intro ht
    obtain ⟨pending, handling, hcore⟩ := h.session o t ht
    obtain ⟨-, hpending, hhandling⟩ := h.serves o true pending handling hcore
    rw [hcore]
    rw [List.mem_append, Option.mem_toList]
    exact ht.imp (hpending t).mpr (hhandling t).mpr

private def isStopStep : WaitEvent → Bool
  | .moves _ | .acquire .. | .accept .. | .die _ | .abandon .. | .forget _ => true
  | _ => false

private theorem stored_setCore {core : ObjectCore} {o' : ObjectId} (hother : v.stored o' = [])
    (hmem : t ∈ v.stored o) : t ∈ (v.setCore o' core).stored o := by
  have ho : o ≠ o' := by
    rintro rfl
    rw [hother] at hmem
    cases hmem
  unfold stored setCore
  dsimp only
  rw [update_of_ne ho]
  exact hmem

private theorem stored_mutex {lockCount : Int} {holder : Option ThreadId} (hcore : v.core o = .mutex lockCount holder) :
    v.stored o = [] := by
  unfold stored
  rw [hcore]

private theorem stop_step {e : WaitEvent} (hstep : ViewStep v e v') (he : isStopStep e) :
    (t ∈ v.stored o → t ∈ v'.stored o) ∧ (v.status t = .dead ∨ e = .die t → v'.status t = .dead) := by
  cases hstep with
  | @moves u status hold hnew =>
    refine ⟨id, fun ht => ?_⟩
    rcases ht with ht | ht
    · have hu : t ≠ u := by
        rintro rfl
        exact hold.2 ht
      exact (update_of_ne hu ..).trans ht
    · cases ht
  | @acquire o' u lockCount holder hcore hfree halive =>
    unfold WaitView.acquired
    split
    · exact ⟨stored_setCore (stored_mutex hcore), fun ht => ht.resolve_right nofun⟩
    · exact ⟨stored_setCore (stored_mutex hcore), fun ht => ht.resolve_right nofun⟩
  | @accept o' u pending hcore =>
    refine ⟨fun hmem => ?_, fun ht => ht.resolve_right nofun⟩
    by_cases ho : o = o'
    · subst ho
      unfold stored at hmem ⊢
      rw [hcore] at hmem
      unfold setCore
      dsimp only at hmem ⊢
      simpa using hmem
    · unfold stored setCore
      dsimp only
      rw [update_of_ne ho]
      exact hmem
  | abandon hdead hheld hcore =>
    exact ⟨stored_setCore (stored_mutex hcore), fun ht => ht.resolve_right nofun⟩
  | forget hdead hnone => exact ⟨id, fun ht => ht.resolve_right nofun⟩
  | @die u =>
    refine ⟨id, fun ht => ?_⟩
    show update v.status u .dead t = .dead
    rw [update_apply]
    split
    · rfl
    · rename_i hu
      rcases ht with ht | ht
      · exact ht
      · cases ht
        exact absurd rfl hu
  | _ => cases he

private theorem stop_run {events : List WaitEvent} (h : ViewRun v events v') (he : ∀ e ∈ events, isStopStep e)
    (hmem : t ∈ v.stored o) (hdie : v.status t = .dead ∨ .die t ∈ events) : t ∈ v'.stored o ∧ v'.status t = .dead := by
  induction h with
  | nil => exact ⟨hmem, hdie.resolve_right List.not_mem_nil⟩
  | @cons v v₁ v' e events hstep _ ih =>
    obtain ⟨hstored, hdead⟩ := stop_step (o := o) (t := t) hstep (he e List.mem_cons_self)
    refine ih (fun e' he' => he e' (List.mem_cons_of_mem _ he')) (hstored hmem) ?_
    rcases hdie with hdie | hdie
    · exact .inl (hdead (.inl hdie))
    · rcases List.mem_cons.mp hdie with rfl | hdie
      · exact .inl (hdead (.inr rfl))
      · exact .inr hdie

end WaitView

namespace WaitKernel

variable {s s' : WaitKernel} {o : ObjectId} {t : ThreadId} {op : Op} {ops : List Op}
  {waits waits' : Waits ObjectId ThreadId}

def stored (s : WaitKernel) (o : ObjectId) : List ThreadId :=
  match s.object o with
  | .serverSession _ pending currentlyHandling => pending ++ currentlyHandling.toList
  | _ => []

private theorem stored_view (s : WaitKernel) (o : ObjectId) : s.view.stored o = s.stored o := by
  unfold WaitView.stored stored view core
  dsimp only
  cases s.object o <;> rfl

/-- No wakeup is scheduled for a thread that waits for a reply, and client ends are closed when no request is left. -/
def Regular (s : WaitKernel) : Op → Prop
  | .timeout t => ∀ o, t ∉ s.stored o
  | .closeClient o => s.stored o = []
  | _ => True

def StopsUnstored (s : WaitKernel) : Op → Prop
  | .stop o => ∀ t, s.object o = .thread t → ∀ o', t ∉ s.stored o'
  | _ => True

/-- What holds of every operation of a run, in the state before it. -/
def Along (P : WaitKernel → Op → Prop) : WaitKernel → List Op → Prop
  | _, [] => True
  | s, op :: ops => ∀ s', s.exec op = .ok s' → P s op ∧ Along P s' ops

/-- The operations one after the other, with what each does to requests; a request is taken in any operation that wakes
threads or acquires objects. -/
inductive RequestRun : WaitKernel → List Op → List (RequestCycle.Event ObjectId ThreadId) → WaitKernel → Prop where
  | nil {s : WaitKernel} : RequestRun s [] [] s
  | cons {s s' s'' : WaitKernel} {op : Op} {ops : List Op}
      {events events' : List (RequestCycle.Event ObjectId ThreadId)} (hexec : s.exec op = .ok s')
      (heffects : events.filter (fun e => !e.accepts) = (s.effects op).flatMap WaitEvent.requestEvents)
      (hrest : RequestRun s' ops events' s'') : RequestRun s (op :: ops) (events ++ events') s''

private theorem allowed_effects (hrep : s.view.Represents waits) (hregular : Regular s op)
    (hstops : StopsUnstored s op) : ∀ e ∈ s.effects op, Allowed waits e := by
  have hmem : ∀ o t, StoredAt waits o t → t ∈ s.stored o := by
    intro o t ht
    rw [← stored_view]
    exact hrep.mem_stored.mpr ht
  intro e he
  unfold effects at he
  cases op with
  | stop o =>
    dsimp only at he
    unfold stopEffects at he
    split at he
    · rename_i t hobject
      rw [List.mem_append, List.mem_cons, List.mem_map, List.mem_singleton] at he
      rcases he with (rfl | ⟨o', -, rfl⟩) | rfl
      · exact fun o' ho' => hstops t hobject o' (hmem o' t ho')
      · trivial
      · trivial
    · cases he
  | timeout t =>
    dsimp only at he
    split at he
    · rw [List.mem_singleton.mp he]
      exact fun o ho => hregular o (hmem o t ho)
    · cases he
  | closeClient o =>
    dsimp only at he
    unfold closeEffects at he
    split at he
    · rw [List.mem_singleton.mp he]
      intro t ht
      have hnone := hmem o t ht
      rw [show s.stored o = [] from hregular] at hnone
      cases hnone
    · cases he
  | replyAndReceive t objects replyTarget =>
    cases replyTarget with
    | none => cases he
    | some o =>
      dsimp only at he
      unfold replyEffects at he
      split at he
      · split at he
        · rw [List.mem_singleton.mp he]
          trivial
        · rw [List.mem_singleton.mp he]
          trivial
        · cases he
      · cases he
  | sendSyncRequest t o handling =>
    dsimp only at he
    unfold requestEffects at he
    split at he
    · split at he
      · cases handling <;> rw [List.mem_singleton.mp he] <;> trivial
      · cases he
    · cases he
  | releaseMutex t o =>
    dsimp only at he
    unfold releaseEffects at he
    split at he
    · split at he
      · split at he
        · rw [List.mem_singleton.mp he]
          trivial
        · cases he
      · cases he
    · cases he
  | createThread priority =>
    dsimp only at he
    split at he
    · rw [List.mem_cons, List.mem_singleton] at he
      rcases he with rfl | rfl <;> trivial
    · cases he
  | createObject object =>
    dsimp only at he
    split at he
    · rw [List.mem_singleton.mp he]
      trivial
    · cases he
  | createMutex t initialLocked =>
    dsimp only at he
    split at he
    · rw [List.mem_singleton.mp he]
      trivial
    · cases he
  | _ => cases he

private theorem effects_of_request (h : .request o t ∈ s.effects op) : s.effects op = [.request o t] := by
  cases op with
  | sendSyncRequest t' o' handling =>
    unfold effects requestEffects at h ⊢
    dsimp only at h ⊢
    split at h
    · rename_i hcalls
      rw [if_pos hcalls]
      split at h
      · cases handling with
        | lle =>
          cases List.mem_singleton.mp h
          rfl
        | hle => cases List.mem_singleton.mp h
        | hleSleep => cases List.mem_singleton.mp h
      · cases h
    · cases h
  | stop o' =>
    unfold effects stopEffects at h
    dsimp only at h
    split at h
    · simp at h
    · cases h
  | replyAndReceive t' objects replyTarget =>
    cases replyTarget with
    | none => cases h
    | some o' =>
      unfold effects replyEffects at h
      dsimp only at h
      split at h
      · split at h <;> simp at h
      · cases h
  | closeClient o' =>
    unfold effects closeEffects at h
    dsimp only at h
    split at h <;> simp at h
  | releaseMutex t' o' =>
    unfold effects releaseEffects at h
    dsimp only at h
    split at h
    · split at h
      · split at h <;> simp at h
      · cases h
    · cases h
  | _ =>
    unfold effects at h
    dsimp only at h
    first
      | cases h
      | (split at h <;> simp at h)

/-- An operation that stops no stored thread keeps the sessions right. -/
theorem exec_represents (howned : s.MutexesOwned) (hrep : s.view.Represents waits) (hregular : Regular s op)
    (hstops : StopsUnstored s op) (hexec : s.exec op = .ok s') :
    ∃ waits' events, RequestCycle.run waits events = some waits' ∧ s'.view.Represents waits' ∧
      events.filter (fun e => !e.accepts) = (s.effects op).flatMap WaitEvent.requestEvents := by
  obtain ⟨events, hrun, hevents⟩ := exec_run (howned.owned.holds howned.settled) hexec
  have heffect : ∀ e ∈ events, e.isWakeup ∨ e ∈ s.effects op := by
    intro e he
    by_cases hwakeup : e.isWakeup
    · exact .inl hwakeup
    · rw [← hevents]
      exact .inr (List.mem_filter.mpr ⟨he, by simpa using hwakeup⟩)
  have hwakeup : ∀ e : WaitEvent, e.isWakeup → ∀ waits', Allowed waits' e := by
    intro e he waits'
    cases e <;> trivial
  have hallowed : ∀ e ∈ events, Allowed waits e := fun e he =>
    (heffect e he).elim (fun h => hwakeup e h waits) (allowed_effects hrep hregular hstops e)
  have hrequest : ∀ o t, .request o t ∈ events → ∀ waits', ∀ e ∈ events, Allowed waits' e := by
    intro o t hot waits' e he
    have hmem : .request o t ∈ s.effects op := (heffect _ hot).resolve_left nofun
    rcases heffect e he with he | he
    · exact hwakeup e he waits'
    · rw [effects_of_request hmem, List.mem_singleton] at he
      rw [he]
      trivial
  obtain ⟨waits', hcycle, hrep'⟩ := hrun.represents howned.owned hrep hallowed hrequest
  exact ⟨waits', _, hcycle, hrep', by rw [filter_requestEvents, hevents]⟩

structure RequestsKept (ops : List Op) (s : WaitKernel) (waits : Waits ObjectId ThreadId)
    (events : List (RequestCycle.Event ObjectId ThreadId)) : Prop where
  run : RequestRun {} ops events s
  cycle : RequestCycle.run (fun _ => none) events = some waits
  represents : s.view.Represents waits
  takenOnce : ∀ o t, events.count (.accept o t) ≤ events.count (.request o t)
  answeredOnce : ∀ o t, events.count (.reply o t) ≤ events.count (.accept o t)

private theorem represents_init : WaitView.Represents (view {}) fun _ => none := by
  refine ⟨fun t => ?_, ?_, ?_⟩
  · exact iff_of_false (show ThreadStatus.dead ≠ .waitIPC by decide) (by simp)
  · intro o client pending handling hcore
    cases hcore
  · intro o t ht
    rcases ht with ht | ht <;> cases ht

theorem foldlM_represents (howned : s.MutexesOwned) (hrep : s.view.Represents waits) (hregular : Along Regular s ops)
    (hstops : Along StopsUnstored s ops) (hops : ops.foldlM exec s = .ok s') :
    ∃ waits' events, RequestRun s ops events s' ∧ RequestCycle.run waits events = some waits' ∧
      s'.view.Represents waits' := by
  induction ops generalizing s waits with
  | nil =>
    cases hops
    exact ⟨waits, [], .nil, rfl, hrep⟩
  | cons op ops ih =>
    obtain ⟨s₁, hexec, hops⟩ := ok_of_bind hops
    obtain ⟨hregular₁, hregular⟩ := hregular s₁ hexec
    obtain ⟨hstops₁, hstops⟩ := hstops s₁ hexec
    obtain ⟨waits₁, events, hone, hrep₁, heffects⟩ := exec_represents howned hrep hregular₁ hstops₁ hexec
    obtain ⟨waits', events', hrun, hcycle, hrep'⟩ := ih (howned.exec hexec).1 hrep₁ hregular hstops hops
    refine ⟨waits', events ++ events', .cons hexec heffects hrun, ?_, hrep'⟩
    rw [RequestCycle.run_append, hone]
    exact hcycle

private theorem along_of_append {P : WaitKernel → Op → Prop} {ops' : List Op} (h : Along P s (ops ++ ops')) :
    Along P s ops := by
  induction ops generalizing s with
  | nil => trivial
  | cons op ops ih =>
    intro s' hexec
    obtain ⟨hone, hrest⟩ := h s' hexec
    exact ⟨hone, ih hrest⟩

theorem stop_stored (howned : s.MutexesOwned) (hobject : s.object o = .thread t) {o' : ObjectId}
    (hmem : t ∈ s.stored o') (h : s.stop o = .ok s') : t ∈ s'.stored o' ∧ s'.status t = .dead := by
  obtain ⟨events, hrun, hevents⟩ := stop_performs (howned.owned.holds howned.settled) h
  have heffects : s.stopEffects o = .die t :: (s.heldMutexes t).map (fun o => .abandon o t) ++ [.forget t] := by
    unfold stopEffects
    rw [hobject]
  rw [heffects] at hevents
  have hsteps : ∀ e ∈ events, WaitView.isStopStep e := by
    intro e he
    by_cases hwakeup : e.isWakeup
    · cases e <;> first | rfl | cases hwakeup
    · have hmem : e ∈ events.filter fun e => !e.isWakeup := List.mem_filter.mpr ⟨he, by simpa using hwakeup⟩
      rw [hevents, List.mem_append, List.mem_cons, List.mem_map, List.mem_singleton] at hmem
      rcases hmem with (rfl | ⟨o'', -, rfl⟩) | rfl <;> rfl
  have hdie : .die t ∈ events := by
    have hmem : .die t ∈ events.filter fun e => !e.isWakeup := by
      rw [hevents]
      simp
    exact (List.mem_filter.mp hmem).1
  rw [← stored_view] at hmem ⊢
  exact WaitView.stop_run hrun hsteps hmem (.inr hdie)

private theorem along_stopsUnstored (before : List Op) (hbefore : WaitKernel.run before = .ok s)
    (hkept : ∀ ops' s', ops' <+: before ++ ops → WaitKernel.run ops' = .ok s' →
      ∃ waits events, RequestsKept ops' s' waits events) : Along StopsUnstored s ops := by
  induction ops generalizing before s with
  | nil => trivial
  | cons op ops ih =>
    intro s' hexec
    have hrun : WaitKernel.run (before ++ [op]) = .ok s' := by
      unfold WaitKernel.run at hbefore ⊢
      rw [List.foldlM_append, hbefore, ok_bind, List.foldlM_cons, hexec]
      rfl
    have hassoc : before ++ op :: ops = (before ++ [op]) ++ ops := by simp
    rw [hassoc] at hkept
    refine ⟨?_, ih _ hrun hkept⟩
    obtain ⟨waits, events, hwaits⟩ := hkept (before ++ [op]) s' (List.prefix_append _ _) hrun
    obtain ⟨howned, -⟩ := mutexesOwned_init.foldlM_exec hbefore
    cases op with
    | stop o =>
      intro t hobject o' hmem
      obtain ⟨hstored, hdead⟩ := stop_stored howned hobject hmem hexec
      rw [← stored_view] at hstored
      have hwait : waits t ≠ none := by
        intro hnone
        rcases hwaits.represents.mem_stored.mp hstored with ht | ht <;> rw [hnone] at ht <;> cases ht
      have hipc : s'.status t = .waitIPC := (hwaits.represents.waiting t).mpr hwait
      rw [hdead] at hipc
      cases hipc
    | _ => trivial

/-- In a run whose timeouts and closed client ends leave the stored threads alone, at every point every thread that
waits for the reply of a session is stored there, once and either as pending or as the one whose request is handled,
every stored thread waits, and no request is taken or answered twice, if and only if no stored thread is stopped. -/
theorem run_represents_iff (hregular : Along Regular {} ops) :
    (∀ ops' s, ops' <+: ops → WaitKernel.run ops' = .ok s → ∃ waits events, RequestsKept ops' s waits events) ↔
      Along StopsUnstored {} ops := by
  constructor
  · exact fun hkept => along_stopsUnstored [] rfl hkept
  · intro hstops ops' s hprefix hrun
    obtain ⟨rest, rfl⟩ := hprefix
    obtain ⟨waits, events, hevents, hcycle, hrep⟩ := foldlM_represents mutexesOwned_init represents_init
      (along_of_append hregular) (along_of_append hstops) hrun
    refine ⟨waits, events, hevents, hcycle, hrep, ?_, ?_⟩
    · intro o t
      have htaken := RequestCycle.run_requests hcycle o t
      simp only [reduceCtorEq, if_false] at htaken
      omega
    · intro o t
      have hanswered := RequestCycle.run_accepts hcycle o t
      simp only [reduceCtorEq, if_false] at hanswered
      omega

private theorem along_of_forall {P : WaitKernel → Op → Prop} (h : ∀ op ∈ ops, ∀ s, P s op) (s : WaitKernel) :
    Along P s ops := by
  induction ops generalizing s with
  | nil => trivial
  | cons op ops ih =>
    intro s' _
    exact ⟨h op List.mem_cons_self s, ih (fun op' hop' => h op' (List.mem_cons_of_mem _ hop')) s'⟩

private def exchange : List Op :=
  [.createThread 30, .createThread 31, .createObject (.serverSession true [] none), .changeStatus 0 .running,
    .sendSyncRequest 0 2 .lle, .changeStatus 1 .running, .replyAndReceive 1 [2] none, .replyAndReceive 1 [2] (some 2)]

theorem run_represents_iff_exchange :
    ∃ s waits events, WaitKernel.run exchange = .ok s ∧ RequestsKept exchange s waits events := by
  have hops : ∀ op ∈ exchange, ∀ s, Regular s op ∧ StopsUnstored s op := by
    intro op hop s
    simp only [exchange, List.mem_cons, List.not_mem_nil, or_false] at hop
    rcases hop with rfl | rfl | rfl | rfl | rfl | rfl | rfl | rfl <;> exact ⟨trivial, trivial⟩
  have hkept := (run_represents_iff (along_of_forall (fun op hop s => (hops op hop s).1) {})).mpr
    (along_of_forall (fun op hop s => (hops op hop s).2) {})
  obtain ⟨s, hs⟩ : ∃ s, WaitKernel.run exchange = .ok s := ⟨_, rfl⟩
  obtain ⟨waits, events, hrequests⟩ := hkept exchange s (List.prefix_refl _) hs
  exact ⟨s, waits, events, hs, hrequests⟩

/-- A client that is stopped while its request is pending stays in the session. -/
theorem stopped_client_stored :
    ∃ s, WaitKernel.run [.createThread 30, .createObject (.serverSession true [] none), .changeStatus 0 .running,
        .sendSyncRequest 0 1 .lle, .stop 0] = .ok s ∧
      s.object 1 = .serverSession true [0] none ∧ s.status 0 = .dead :=
  ⟨_, rfl, rfl, rfl⟩

end WaitKernel

end SweepDSEmu