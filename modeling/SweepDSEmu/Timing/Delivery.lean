import SweepDSEmu.Timing.Basic

/-!
# Delivery of events

A run interleaves calls of the timing functions, made by guest code, by callbacks or by other host threads, with
the turns of the event loop of `Advance`.  `Config.step` takes the loop apart: `beginAdvance` drains the thread-safe
queue and updates the ticks, `deliver` pops one due event and runs its callback (whose calls are the steps that
follow), `endAdvance` leaves the loop when no event is due.

In every run no event is delivered twice and `Advance` leaves no due event behind.  Two more properties need a
condition on the steps (`Orderly`):

* a callback schedules no event on the advancing core before the tick of the event being delivered; then one
  `Advance` delivers in the order of `(time, fifo_order)`;
* no matching event waits in a thread-safe queue when `UnscheduleEvent` or `RemoveEvent` is called, as neither looks
  there; then no matching event scheduled before the call is delivered after it.
-/

namespace SweepDSEmu.Timing

/-- A timing with the events delivered so far and the `Advance` in progress, if any: its core and the events it has
delivered.  Both lists have the newest event first. -/
structure Config where
  timing : Timing
  delivered : List Event := []
  advancing : Option (Nat × List Event) := none

inductive Act where
  | cmd (c : Cmd)
  | setCurrentTimer (core : Nat)
  | addTicks (core : Nat) (ticks : Int)
  | idle (core : Nat)
  | setNextSlice (core : Nat) (maxSlice : Int)
  | beginAdvance (core : Nat)
  | deliver
  | endAdvance

/-- The assertion `core_id < timers.size()` of `ScheduleEvent`. -/
def Cmd.InRange (t : Timing) : Cmd → Prop
  | .schedule _ _ _ (some core) _ => core < t.numCores
  | _ => True

instance (t : Timing) : DecidablePred (Cmd.InRange t) := fun c => by
  cases c with
  | schedule _ _ _ core _ => cases core <;> unfold Cmd.InRange <;> infer_instance
  | _ => unfold Cmd.InRange; infer_instance

/-- The effect of a step; `none` when the step is not possible. -/
def Config.step (c : Config) : Act → Option Config
  | .cmd cmd => if cmd.InRange c.timing then some { c with timing := c.timing.exec cmd } else none
  | .setCurrentTimer core => some { c with timing := c.timing.setCurrentTimer core }
  | .addTicks core ticks =>
    some { c with timing := c.timing.setTimer core ((c.timing.timers core).addTicks ticks) }
  | .idle core => some { c with timing := c.timing.setTimer core (c.timing.timers core).idle }
  | .setNextSlice core maxSlice =>
    some { c with timing := c.timing.setTimer core ((c.timing.timers core).setNextSlice maxSlice) }
  | .beginAdvance core =>
    match c.advancing with
    | none => some { c with
        timing := c.timing.setTimer core (c.timing.timers core).beginAdvance
        advancing := some (core, []) }
    | some _ => none
  | .deliver =>
    match c.advancing with
    | none => none
    | some (core, events) =>
      match (c.timing.timers core).popDue with
      | some (e, timer) => some
          { timing := c.timing.setTimer core timer
            delivered := e :: c.delivered
            advancing := some (core, e :: events) }
      | none => none
  | .endAdvance =>
    match c.advancing with
    | none => none
    | some (core, _) =>
      match (c.timing.timers core).popDue with
      | some _ => none
      | none => some { c with
          timing := c.timing.setTimer core { c.timing.timers core with isTimerSane := false }
          advancing := none }

def Config.run (c : Config) : List Act → Option Config
  | [] => some c
  | a :: acts => (c.step a).bind fun c' => c'.run acts

def Config.init (numCores : Nat) (baseTicks : Int) : Config := { timing := Timing.init numCores baseTicks }

def Orderly (c : Config) : Act → Prop
  | .cmd (.schedule cycles _ _ coreId threadSafe) =>
    ∀ core e events, c.advancing = some (core, e :: events) → threadSafe = false →
      coreId.getD c.timing.currentTimer = core → c.timing.currentTimer = core →
        e.time ≤ (c.timing.timers core).getTicks + cycles
  | .cmd (.unschedule type userData) =>
    ∀ core, ∀ e ∈ (c.timing.timers core).tsQueue, ¬ (e.type = type ∧ e.userData = userData)
  | .cmd (.remove type) => ∀ core, ∀ e ∈ (c.timing.timers core).tsQueue, e.type ≠ type
  | _ => True

def OrderlyRun (c : Config) : List Act → Prop
  | [] => True
  | a :: acts => Orderly c a ∧ ∀ c', c.step a = some c' → OrderlyRun c' acts

def Timer.pending (t : Timer) : List Event := t.eventQueue ++ t.tsQueue

private theorem pushHeap_perm (q : List Event) (e : Event) : (Timer.pushHeap q e).Perm (e :: q) :=
  List.perm_orderedInsert ..

/-- The heap is sorted and its `fifoOrder`s were handed out. -/
private structure HeapOk (t : Timer) : Prop where
  sorted : t.eventQueue.Pairwise Event.le
  fifo : ∀ e ∈ t.eventQueue, e.fifoOrder < t.eventFifoId

private theorem HeapOk.push {t : Timer} (h : HeapOk t) (e : Event) (he : e.fifoOrder = t.eventFifoId) :
    HeapOk { t with eventFifoId := t.eventFifoId + 1, eventQueue := Timer.pushHeap t.eventQueue e } where
  sorted := pushHeap_sorted h.sorted e
  fifo := by
    intro x hx
    show x.fifoOrder < t.eventFifoId + 1
    rcases mem_pushHeap.mp hx with rfl | hx
    · omega
    · have := h.fifo x hx; omega

/-- Two events that only differ in their place in the heap. -/
private def SameEvent (a b : Event) : Prop := a.type = b.type ∧ a.userData = b.userData ∧ a.serial = b.serial

private theorem moveEvents_fold (l : List Event) (t : Timer) (h : HeapOk t) :
    HeapOk (l.foldl Timer.moveEvent t) ∧
      ((l.foldl Timer.moveEvent t).eventQueue.map Event.serial).Perm
        ((t.eventQueue ++ l).map Event.serial) ∧
      ∀ e' ∈ (l.foldl Timer.moveEvent t).eventQueue, ∃ e ∈ t.eventQueue ++ l, SameEvent e' e := by
  induction l generalizing t with
  | nil =>
    refine ⟨h, by simp, ?_⟩
    intro e' he'
    exact ⟨e', by simpa using he', rfl, rfl, rfl⟩
  | cons ev l ih =>
    obtain ⟨h1, h2, h3⟩ := ih (t.moveEvent ev) (h.push _ rfl)
    refine ⟨h1, ?_, ?_⟩
    · refine h2.trans ?_
      have hp := (pushHeap_perm t.eventQueue { ev with fifoOrder := t.eventFifoId }).map Event.serial
      simp only [Timer.moveEvent, List.map_append, List.map_cons] at hp ⊢
      exact (hp.append_right _).trans List.perm_middle.symm
    · intro e' he'
      obtain ⟨e, he, hs⟩ := h3 e' he'
      rcases List.mem_append.mp he with he | he
      · rcases mem_pushHeap.mp he with rfl | he
        · exact ⟨ev, by simp, hs⟩
        · exact ⟨e, by simp [he], hs⟩
      · exact ⟨e, by simp [he], hs⟩

private theorem beginAdvance_ok {t : Timer} (h : HeapOk t) :
    HeapOk t.beginAdvance ∧ (t.beginAdvance.pending.map Event.serial).Perm (t.pending.map Event.serial) ∧
      (∀ e' ∈ t.beginAdvance.pending, ∃ e ∈ t.pending, SameEvent e' e) := by
  obtain ⟨h1, h2, h3⟩ := moveEvents_fold t.tsQueue t h
  have hp : t.beginAdvance.pending = (t.tsQueue.foldl Timer.moveEvent t).eventQueue := by
    simp [Timer.beginAdvance, Timer.moveEvents, Timer.pending]
  exact ⟨⟨h1.sorted, h1.fifo⟩, by rw [hp]; exact h2, by rw [hp]; exact h3⟩

/-- The serial numbers waiting at the cores and the delivered ones are all different and were handed out. -/
private structure Accounted (waiting : Nat → List Nat) (delivered : List Nat) (next : Nat) : Prop where
  nodup : ∀ k, (waiting k).Nodup
  apart : ∀ k k' s, s ∈ waiting k → s ∈ waiting k' → k = k'
  bound : ∀ k, ∀ s ∈ waiting k, s < next
  once : delivered.Nodup
  done : ∀ s ∈ delivered, s < next ∧ ∀ k, s ∉ waiting k

private theorem Accounted.subperm {waiting waiting' : Nat → List Nat} {delivered : List Nat} {next : Nat}
    (h : Accounted waiting delivered next) (hsub : ∀ k, (waiting' k).Subperm (waiting k)) :
    Accounted waiting' delivered next where
  nodup k := by
    obtain ⟨l, hp, hs⟩ := hsub k
    exact hp.nodup_iff.mp (hs.nodup (h.nodup k))
  apart k k' s hk hk' := h.apart k k' s ((hsub k).subset hk) ((hsub k').subset hk')
  bound k s hs := h.bound k s ((hsub k).subset hs)
  once := h.once
  done s hs := ⟨(h.done s hs).1, fun k hk => (h.done s hs).2 k ((hsub k).subset hk)⟩

private theorem Accounted.push {waiting waiting' : Nat → List Nat} {delivered : List Nat} {next : Nat}
    (h : Accounted waiting delivered next) (core : Nat) (hcore : (waiting' core).Perm (next :: waiting core))
    (hother : ∀ k, k ≠ core → waiting' k = waiting k) : Accounted waiting' delivered (next + 1) := by
  have hmem : ∀ k s, s ∈ waiting' k → (k = core ∧ s = next) ∨ s ∈ waiting k := by
    intro k s hs
    by_cases hk : k = core
    · subst hk
      rcases List.mem_cons.mp (hcore.mem_iff.mp hs) with h1 | h1
      · exact Or.inl ⟨rfl, h1⟩
      · exact Or.inr h1
    · rw [hother k hk] at hs; exact Or.inr hs
  refine ⟨?_, ?_, ?_, h.once, ?_⟩
  · intro k
    by_cases hk : k = core
    · subst hk
      refine hcore.nodup_iff.mpr (List.nodup_cons.mpr ⟨?_, h.nodup k⟩)
      intro hin
      exact absurd (h.bound k next hin) (by omega)
    · rw [hother k hk]; exact h.nodup k
  · intro k k' s hs hs'
    rcases hmem k s hs with ⟨rfl, rfl⟩ | hs <;> rcases hmem k' s hs' with ⟨rfl, h2⟩ | hs'
    · rfl
    · exact absurd (h.bound _ _ hs') (by omega)
    · subst h2; exact absurd (h.bound _ _ hs) (by omega)
    · exact h.apart k k' s hs hs'
  · intro k s hs
    rcases hmem k s hs with ⟨-, rfl⟩ | hs
    · omega
    · have := h.bound k s hs; omega
  · intro s hs
    have hd := h.done s hs
    refine ⟨by omega, ?_⟩
    intro k hk
    rcases hmem k s hk with ⟨-, rfl⟩ | hk
    · omega
    · exact hd.2 k hk

private theorem Accounted.deliver {waiting waiting' : Nat → List Nat} {delivered : List Nat} {next s : Nat}
    (h : Accounted waiting delivered next) (core : Nat) (hcore : waiting core = s :: waiting' core)
    (hother : ∀ k, k ≠ core → waiting' k = waiting k) : Accounted waiting' (s :: delivered) next := by
  have hs : s ∈ waiting core := by rw [hcore]; simp
  have hnd := h.nodup core
  rw [hcore, List.nodup_cons] at hnd
  have hsub : ∀ k, (waiting' k).Subperm (waiting k) := by
    intro k
    by_cases hk : k = core
    · subst hk; rw [hcore]; exact (List.sublist_cons_self _ _).subperm
    · rw [hother k hk]
  have h' := h.subperm hsub
  refine ⟨h'.nodup, h'.apart, h'.bound, List.nodup_cons.mpr ⟨?_, h.once⟩, ?_⟩
  · intro hin
    exact (h.done s hin).2 core hs
  · intro u hu
    rcases List.mem_cons.mp hu with rfl | hu
    · refine ⟨h.bound core u hs, ?_⟩
      intro k hk
      by_cases hkc : k = core
      · subst hkc; exact hnd.1 hk
      · exact hkc (h.apart k core u ((hsub k).subset hk) hs)
    · exact h'.done u hu

private inductive Effect (c c' : Config) : Prop
  | erase (queue : ∀ k, List.Sublist (c'.timing.timers k).eventQueue (c.timing.timers k).eventQueue)
      (ts : ∀ k, (c'.timing.timers k).tsQueue = (c.timing.timers k).tsQueue)
      (fifo : ∀ k, (c'.timing.timers k).eventFifoId = (c.timing.timers k).eventFifoId)
      (serial : c'.timing.nextSerial = c.timing.nextSerial)
      (locked : c'.timing.eventQueueLocked = c.timing.eventQueueLocked)
      (delivered : c'.delivered = c.delivered)
      (advancing : c'.advancing = c.advancing ∨ c'.advancing = none)
  | move (core : Nat) (timing : c'.timing = c.timing.setTimer core (c.timing.timers core).beginAdvance)
      (delivered : c'.delivered = c.delivered) (advancing : c'.advancing = some (core, []))
  | heap (core : Nat) (e : Event) (timer : Timer)
      (queue : timer.eventQueue = (c.timing.timers core).eventQueue)
      (ts : timer.tsQueue = (c.timing.timers core).tsQueue)
      (fifo : timer.eventFifoId = (c.timing.timers core).eventFifoId)
      (order : e.fifoOrder = timer.eventFifoId) (number : e.serial = c.timing.nextSerial)
      (late : ∀ d ds, c.advancing = some (core, d :: ds) → d.time ≤ e.time)
      (timing : c'.timing = { c.timing.setTimer core { timer with
          eventFifoId := timer.eventFifoId + 1
          eventQueue := Timer.pushHeap timer.eventQueue e } with nextSerial := c.timing.nextSerial + 1 })
      (delivered : c'.delivered = c.delivered) (advancing : c'.advancing = c.advancing)
  | wait (core : Nat) (e : Event) (number : e.serial = c.timing.nextSerial)
      (timing : c'.timing = { c.timing.setTimer core { c.timing.timers core with
          tsQueue := (c.timing.timers core).tsQueue ++ [e] } with nextSerial := c.timing.nextSerial + 1 })
      (delivered : c'.delivered = c.delivered) (advancing : c'.advancing = c.advancing)
  | deliver (core : Nat) (e : Event) (rest events : List Event)
      (was : c.advancing = some (core, events)) (queue : (c.timing.timers core).eventQueue = e :: rest)
      (timing : c'.timing = c.timing.setTimer core { c.timing.timers core with eventQueue := rest })
      (delivered : c'.delivered = e :: c.delivered) (advancing : c'.advancing = some (core, e :: events))

private theorem Effect.ofTimer (c : Config) (core : Nat) (timer : Timer)
    (hq : timer.eventQueue = (c.timing.timers core).eventQueue)
    (hts : timer.tsQueue = (c.timing.timers core).tsQueue)
    (hf : timer.eventFifoId = (c.timing.timers core).eventFifoId) {advancing : Option (Nat × List Event)}
    (ha : advancing = c.advancing ∨ advancing = none) :
    Effect c { c with timing := c.timing.setTimer core timer, advancing := advancing } := by
  refine .erase ?_ ?_ ?_ rfl rfl rfl ha
  all_goals
    intro k
    by_cases hk : k = core
    · subst hk; simp [hq, hts, hf]
    · simp [setTimer_of_ne, hk]

private theorem eraseEvents_effect (c : Config) (p : Event → Bool) :
    Effect c { c with timing := c.timing.eraseEvents p } := by
  unfold eraseEvents
  split
  · exact .erase (fun _ => List.Sublist.refl _) (fun _ => rfl) (fun _ => rfl) rfl rfl rfl (Or.inl rfl)
  · exact .erase (fun _ => List.filter_sublist) (fun _ => rfl) (fun _ => rfl) rfl rfl rfl (Or.inl rfl)

private theorem forceExceptionCheck_queues (t : Timer) (cycles : Int) :
    (t.forceExceptionCheck cycles).eventQueue = t.eventQueue ∧ (t.forceExceptionCheck cycles).tsQueue = t.tsQueue ∧
      (t.forceExceptionCheck cycles).eventFifoId = t.eventFifoId := by
  unfold Timer.forceExceptionCheck
  dsimp only
  split <;> exact ⟨rfl, rfl, rfl⟩

private theorem scheduleEvent_effect (c : Config) (cycles : Int) (type userData : Nat) (coreId : Option Nat)
    (threadSafe : Bool) (h : Orderly c (.cmd (.schedule cycles type userData coreId threadSafe))) :
    Effect c { c with timing := c.timing.scheduleEvent cycles type userData coreId threadSafe } := by
  unfold scheduleEvent
  split
  · exact .erase (fun _ => List.Sublist.refl _) (fun _ => rfl) (fun _ => rfl) rfl rfl rfl (Or.inl rfl)
  dsimp only
  split
  · exact .wait _ ⟨_, 0, userData, type, _⟩ rfl rfl rfl rfl
  rename_i hts
  split
  · rename_i hcur
    have hlate : ∀ d ds, c.advancing = some (coreId.getD c.timing.currentTimer, d :: ds) →
        d.time ≤ (c.timing.timers (coreId.getD c.timing.currentTimer)).getTicks + cycles := by
      intro d ds hd
      exact h _ d ds hd (by simpa using hts) rfl hcur
    split
    · exact .heap _ ⟨_, _, userData, type, _⟩ _ rfl rfl rfl rfl rfl hlate rfl rfl rfl
    · obtain ⟨h1, h2, h3⟩ := forceExceptionCheck_queues
        (c.timing.timers (coreId.getD c.timing.currentTimer)) cycles
      exact .heap _ ⟨_, _, userData, type, _⟩ _ h1 h2 h3 rfl rfl hlate rfl rfl rfl
  · exact .wait _ ⟨_, 0, userData, type, _⟩ rfl rfl rfl rfl

variable {c c' : Config}

private theorem step_effect {a : Act} (h : c.step a = some c') (ho : Orderly c a) : Effect c c' := by
  cases a with
  | cmd cmd =>
    simp only [Config.step] at h
    split at h
    · cases h
      cases cmd with
      | schedule cycles type userData coreId threadSafe => exact scheduleEvent_effect c _ _ _ _ _ ho
      | unschedule type userData => exact eraseEvents_effect c _
      | remove type => exact eraseEvents_effect c _
    · cases h
  | setCurrentTimer core =>
    cases h
    exact .erase (fun _ => List.Sublist.refl _) (fun _ => rfl) (fun _ => rfl) rfl rfl rfl (Or.inl rfl)
  | addTicks core ticks => cases h; exact Effect.ofTimer c core ((c.timing.timers core).addTicks ticks) rfl rfl rfl (Or.inl rfl)
  | idle core => cases h; exact Effect.ofTimer c core (c.timing.timers core).idle rfl rfl rfl (Or.inl rfl)
  | setNextSlice core maxSlice =>
    cases h
    exact Effect.ofTimer c core ((c.timing.timers core).setNextSlice maxSlice) rfl rfl rfl (Or.inl rfl)
  | beginAdvance core =>
    simp only [Config.step] at h
    split at h <;> cases h
    exact .move core rfl rfl rfl
  | deliver =>
    simp only [Config.step] at h
    split at h
    · cases h
    · rename_i core events hadv
      split at h <;> cases h
      rename_i e timer hpop
      obtain ⟨-, rest, hq, rfl⟩ := Timer.popDue_some hpop
      exact .deliver core e rest events hadv hq rfl rfl rfl
  | endAdvance =>
    simp only [Config.step] at h
    split at h
    · cases h
    · rename_i core _ _
      split at h <;> cases h
      exact Effect.ofTimer c core { c.timing.timers core with isTimerSane := false } rfl rfl rfl (Or.inr rfl)

private def waiting (c : Config) (core : Nat) : List Nat := (c.timing.timers core).pending.map Event.serial

/-- The events of the `Advance` in progress were delivered in order, and what still waits in the heap comes later. -/
private structure InOrder (timer : Timer) (events : List Event) : Prop where
  ordered : events.Pairwise fun a b => b.le a
  fifo : ∀ d ∈ events, d.fifoOrder < timer.eventFifoId
  next : ∀ d ds, events = d :: ds → ∀ e ∈ timer.eventQueue, d.le e

private structure Inv (c : Config) : Prop where
  unlocked : c.timing.eventQueueLocked = false
  heap : ∀ k, HeapOk (c.timing.timers k)
  accounted : Accounted (waiting c) (c.delivered.map Event.serial) c.timing.nextSerial
  order : ∀ core events, c.advancing = some (core, events) → InOrder (c.timing.timers core) events

private theorem inv_init (numCores : Nat) (baseTicks : Int) : Inv (Config.init numCores baseTicks) where
  unlocked := rfl
  heap _ := ⟨List.Pairwise.nil, fun _ he => nomatch he⟩
  accounted :=
    ⟨fun _ => List.nodup_nil, fun _ _ _ h => (List.not_mem_nil h).elim, fun _ _ h => (List.not_mem_nil h).elim,
      List.nodup_nil, fun _ h => (List.not_mem_nil h).elim⟩
  order _ _ h := nomatch h

private theorem InOrder.sublist {t t' : Timer} {events : List Event} (h : InOrder t events)
    (hq : t'.eventQueue.Sublist t.eventQueue) (hf : t'.eventFifoId = t.eventFifoId) : InOrder t' events where
  ordered := h.ordered
  fifo d hd := by rw [hf]; exact h.fifo d hd
  next d ds hd e he := h.next d ds hd e (hq.subset he)

private theorem InOrder.push {t t' : Timer} {events : List Event} {e : Event} (h : InOrder t events)
    (hq : t'.eventQueue = Timer.pushHeap t.eventQueue e) (hf : t'.eventFifoId = t.eventFifoId + 1)
    (he : e.fifoOrder = t.eventFifoId) (hlate : ∀ d ds, events = d :: ds → d.time ≤ e.time) : InOrder t' events where
  ordered := h.ordered
  fifo d hd := by have := h.fifo d hd; omega
  next := by
    intro d ds hd x hx
    rw [hq] at hx
    rcases mem_pushHeap.mp hx with rfl | hx
    · have h1 := hlate d ds hd
      have h2 := h.fifo d (by simp [hd])
      unfold Event.le
      omega
    · exact h.next d ds hd x hx

private theorem InOrder.deliver {t : Timer} {events rest : List Event} {e : Event} (h : InOrder t events)
    (hok : HeapOk t) (hq : t.eventQueue = e :: rest) : InOrder { t with eventQueue := rest } (e :: events) where
  ordered := by
    refine List.pairwise_cons.mpr ⟨?_, h.ordered⟩
    cases events with
    | nil => intro d hd; exact absurd hd List.not_mem_nil
    | cons d ds =>
      have hde : d.le e := h.next d ds rfl e (by simp [hq])
      intro b hb
      rcases List.mem_cons.mp hb with rfl | hb
      · exact hde
      · exact Trans.trans ((List.pairwise_cons.mp h.ordered).1 b hb) hde
  fifo := by
    intro d hd
    rcases List.mem_cons.mp hd with rfl | hd
    · exact hok.fifo d (by simp [hq])
    · exact h.fifo d hd
  next := by
    intro d ds hd x hx
    cases hd
    have hs := hok.sorted
    rw [hq, List.pairwise_cons] at hs
    exact hs.1 x hx

private theorem forall_setTimer {P : Nat → Timer → Prop} {t : Timing} {core : Nat} {timer : Timer}
    (h : ∀ k, P k (t.timers k)) (hcore : P core timer) (k : Nat) : P k ((t.setTimer core timer).timers k) := by
  by_cases hk : k = core
  · subst hk; rw [setTimer_self]; exact hcore
  · rw [setTimer_of_ne _ _ hk]; exact h k

private theorem waiting_of_ne {t : Timing} {core k : Nat} {timer : Timer}
    (h : t.timers = (c.timing.setTimer core timer).timers) (hk : k ≠ core) :
    (t.timers k).pending.map Event.serial = waiting c k := by
  rw [h, setTimer_of_ne _ _ hk]; rfl

private theorem inv_step (h : Inv c) (he : Effect c c') : Inv c' := by
  cases he with
  | erase queue ts fifo serial locked delivered advancing =>
    refine ⟨locked.trans h.unlocked, ?_, ?_, ?_⟩
    · intro k
      refine ⟨(h.heap k).sorted.sublist (queue k), ?_⟩
      intro e he
      rw [fifo k]
      exact (h.heap k).fifo e ((queue k).subset he)
    · rw [serial, delivered]
      apply h.accounted.subperm
      intro k
      have hsub : (c'.timing.timers k).pending.Sublist (c.timing.timers k).pending := by
        unfold Timer.pending
        rw [ts k]
        exact (queue k).append_right _
      exact (hsub.map Event.serial).subperm
    · intro core events hadv
      rcases advancing with ha | ha
      · exact (h.order core events (ha ▸ hadv)).sublist (queue core) (fifo core)
      · rw [ha] at hadv; cases hadv
  | move core timing delivered advancing =>
    obtain ⟨hok, hperm, -⟩ := beginAdvance_ok (h.heap core)
    refine ⟨by rw [timing]; exact h.unlocked, ?_, ?_, ?_⟩
    · rw [timing]
      exact forall_setTimer (P := fun _ t => HeapOk t) h.heap hok
    · rw [delivered, timing]
      apply h.accounted.subperm
      intro k
      by_cases hk : k = core
      · subst hk
        unfold waiting
        rw [timing, setTimer_self]
        exact hperm.subperm
      · have : waiting c' k = waiting c k := waiting_of_ne (by rw [timing]) hk
        rw [this]
    · intro core' events hadv
      rw [advancing] at hadv
      cases hadv
      exact ⟨List.Pairwise.nil, fun _ hd => (List.not_mem_nil hd).elim, fun _ _ hd => nomatch hd⟩
  | heap core e timer queue ts fifo order number late timing delivered advancing =>
    have htimers : c'.timing.timers = (c.timing.setTimer core { timer with
        eventFifoId := timer.eventFifoId + 1
        eventQueue := Timer.pushHeap timer.eventQueue e }).timers := by rw [timing]
    have hok : HeapOk timer := by
      refine ⟨queue ▸ (h.heap core).sorted, ?_⟩
      rw [queue, fifo]
      exact (h.heap core).fifo
    refine ⟨by rw [timing]; exact h.unlocked, ?_, ?_, ?_⟩
    · rw [htimers]
      exact forall_setTimer (P := fun _ t => HeapOk t) h.heap (hok.push e order)
    · rw [delivered]
      have hserial : c'.timing.nextSerial = c.timing.nextSerial + 1 := by rw [timing]
      rw [hserial]
      refine h.accounted.push core ?_ fun k hk => waiting_of_ne htimers hk
      unfold waiting
      rw [htimers, setTimer_self]
      simp only [Timer.pending, queue, ts, ← number, List.map_append]
      exact ((pushHeap_perm _ e).map Event.serial).append_right _
    · intro core' events hadv
      rw [advancing] at hadv
      rw [htimers]
      by_cases hk : core' = core
      · subst hk
        rw [setTimer_self]
        refine (h.order core' events hadv).push (e := e) ?_ ?_ ?_ ?_
        · rw [← queue]
        · rw [← fifo]
        · rw [order, fifo]
        · intro d ds hd
          exact late d ds (hd ▸ hadv)
      · rw [setTimer_of_ne _ _ hk]
        exact h.order core' events hadv
  | wait core e number timing delivered advancing =>
    have htimers : c'.timing.timers = (c.timing.setTimer core { c.timing.timers core with
        tsQueue := (c.timing.timers core).tsQueue ++ [e] }).timers := by rw [timing]
    refine ⟨by rw [timing]; exact h.unlocked, ?_, ?_, ?_⟩
    · rw [htimers]
      exact forall_setTimer (P := fun _ t => HeapOk t) h.heap ⟨(h.heap core).sorted, (h.heap core).fifo⟩
    · rw [delivered]
      have hserial : c'.timing.nextSerial = c.timing.nextSerial + 1 := by rw [timing]
      rw [hserial]
      refine h.accounted.push core ?_ fun k hk => waiting_of_ne htimers hk
      unfold waiting
      rw [htimers, setTimer_self]
      simp only [Timer.pending, ← List.append_assoc, ← number]
      exact (List.perm_append_singleton e _).map Event.serial
    · intro core' events hadv
      rw [advancing] at hadv
      rw [htimers]
      refine forall_setTimer (P := fun k t => c.advancing = some (k, events) → InOrder t events) ?_ ?_ core' hadv
      · intro k hk
        exact h.order k events hk
      · intro ha
        exact (h.order core events ha).sublist (List.Sublist.refl _) rfl
  | deliver core e rest events was queue timing delivered advancing =>
    refine ⟨by rw [timing]; exact h.unlocked, ?_, ?_, ?_⟩
    · have hs := (h.heap core).sorted
      rw [queue, List.pairwise_cons] at hs
      rw [timing]
      refine forall_setTimer (P := fun _ t => HeapOk t) h.heap ⟨hs.2, ?_⟩
      intro x hx
      exact (h.heap core).fifo x (by rw [queue]; exact List.mem_cons_of_mem e hx)
    · rw [delivered, timing]
      refine h.accounted.deliver core ?_ fun k hk => waiting_of_ne (by rw [timing]) hk
      unfold waiting
      rw [timing, setTimer_self]
      simp [Timer.pending, queue]
    · intro core' events' hadv
      rw [advancing] at hadv
      cases hadv
      rw [timing, setTimer_self]
      exact (h.order core events was).deliver (h.heap core) queue

/-- Events that satisfy `p` and wait in a queue were scheduled after the first `n` events. -/
private structure Cancelled (p : Event → Prop) (n : Nat) (c : Config) : Prop where
  bound : n ≤ c.timing.nextSerial
  later : ∀ k, ∀ e ∈ (c.timing.timers k).pending, p e → n ≤ e.serial

/-- `p` only looks at the type and the user data. -/
private def Stable (p : Event → Prop) : Prop := ∀ a b, SameEvent a b → p a → p b

private theorem cancelled_step {p : Event → Prop} (hp : Stable p) {n : Nat} (hi : Inv c)
    (h : Cancelled p n c) (he : Effect c c') :
    Cancelled p n c' ∧ (c'.delivered = c.delivered ∨ ∃ e, c'.delivered = e :: c.delivered ∧ (p e → n ≤ e.serial)) := by
  cases he with
  | erase queue ts fifo serial locked delivered advancing =>
    refine ⟨⟨serial ▸ h.bound, ?_⟩, Or.inl delivered⟩
    intro k e he
    apply h.later k e
    unfold Timer.pending at he ⊢
    rw [ts k] at he
    exact ((queue k).append_right _).subset he
  | move core timing delivered advancing =>
    refine ⟨⟨by rw [timing]; exact h.bound, ?_⟩, Or.inl delivered⟩
    rw [timing]
    refine forall_setTimer (P := fun _ t => ∀ e ∈ t.pending, p e → n ≤ e.serial) h.later ?_
    intro e he hpe
    obtain ⟨e', he', hs⟩ := (beginAdvance_ok (hi.heap core)).2.2 e he
    have := h.later core e' he' (hp e e' hs hpe)
    rw [hs.2.2]
    exact this
  | heap core e timer queue ts fifo order number late timing delivered advancing =>
    refine ⟨⟨?_, ?_⟩, Or.inl delivered⟩
    · rw [timing]; exact Nat.le_succ_of_le h.bound
    rw [timing]
    refine forall_setTimer (P := fun _ t => ∀ e ∈ t.pending, p e → n ≤ e.serial) h.later ?_
    intro x hx hpx
    simp only [Timer.pending, List.mem_append, mem_pushHeap, queue, ts] at hx
    rcases hx with (rfl | hx) | hx
    · rw [number]; exact h.bound
    · exact h.later core x (List.mem_append_left _ hx) hpx
    · exact h.later core x (List.mem_append_right _ hx) hpx
  | wait core e number timing delivered advancing =>
    refine ⟨⟨?_, ?_⟩, Or.inl delivered⟩
    · rw [timing]; exact Nat.le_succ_of_le h.bound
    rw [timing]
    refine forall_setTimer (P := fun _ t => ∀ e ∈ t.pending, p e → n ≤ e.serial) h.later ?_
    intro x hx hpx
    simp only [Timer.pending, List.mem_append, List.mem_singleton] at hx
    rcases hx with hx | hx | rfl
    · exact h.later core x (List.mem_append_left _ hx) hpx
    · exact h.later core x (List.mem_append_right _ hx) hpx
    · rw [number]; exact h.bound
  | deliver core e rest events was queue timing delivered advancing =>
    have hmem : ∀ x ∈ rest ++ (c.timing.timers core).tsQueue, x ∈ (c.timing.timers core).pending := by
      intro x hx
      unfold Timer.pending
      rw [queue]
      exact List.mem_cons_of_mem e hx
    refine ⟨⟨by rw [timing]; exact h.bound, ?_⟩, Or.inr ⟨e, delivered, ?_⟩⟩
    · rw [timing]
      refine forall_setTimer (P := fun _ t => ∀ e ∈ t.pending, p e → n ≤ e.serial) h.later ?_
      intro x hx
      exact h.later core x (hmem x hx)
    · apply h.later core e
      unfold Timer.pending
      rw [queue]
      simp

private theorem run_inv {acts : List Act} (hi : Inv c) (ho : OrderlyRun c acts)
    (h : c.run acts = some c') : Inv c' := by
  induction acts generalizing c with
  | nil => cases h; exact hi
  | cons a acts ih =>
    obtain ⟨c₁, hs, hr⟩ := Option.bind_eq_some_iff.mp h
    exact ih (inv_step hi (step_effect hs ho.1)) (ho.2 c₁ hs) hr

private theorem run_cancelled {p : Event → Prop} (hp : Stable p) {n : Nat} {acts : List Act}
    (hi : Inv c) (hc : Cancelled p n c) (ho : OrderlyRun c acts) (h : c.run acts = some c') :
    ∃ later, c'.delivered = later ++ c.delivered ∧ ∀ e ∈ later, p e → n ≤ e.serial := by
  induction acts generalizing c with
  | nil => cases h; exact ⟨[], rfl, fun _ he => (List.not_mem_nil he).elim⟩
  | cons a acts ih =>
    obtain ⟨c₁, hs, hr⟩ := Option.bind_eq_some_iff.mp h
    have he := step_effect hs ho.1
    obtain ⟨hc₁, hd⟩ := cancelled_step hp hi hc he
    obtain ⟨later, hl, hle⟩ := ih (inv_step hi he) hc₁ (ho.2 c₁ hs) hr
    rcases hd with hd | ⟨e, hd, hpe⟩
    · exact ⟨later, by rw [hl, hd], hle⟩
    · refine ⟨later ++ [e], by rw [hl, hd]; simp, ?_⟩
      intro x hx
      rcases List.mem_append.mp hx with hx | hx
      · exact hle x hx
      · rw [List.mem_singleton.mp hx]; exact hpe

private theorem run_append {pre post : List Act} (h : c.run (pre ++ post) = some c') :
    ∃ c₁, c.run pre = some c₁ ∧ c₁.run post = some c' := by
  induction pre generalizing c with
  | nil => exact ⟨c, rfl, h⟩
  | cons a pre ih =>
    obtain ⟨c₀, hs, hr⟩ := Option.bind_eq_some_iff.mp h
    obtain ⟨c₁, h1, h2⟩ := ih hr
    exact ⟨c₁, by simp only [Config.run, hs, Option.bind_some, h1], h2⟩

private theorem orderlyRun_append {c c₁ : Config} {pre post : List Act} (h : OrderlyRun c (pre ++ post))
    (hr : c.run pre = some c₁) : OrderlyRun c pre ∧ OrderlyRun c₁ post := by
  induction pre generalizing c with
  | nil => cases hr; exact ⟨trivial, h⟩
  | cons a pre ih =>
    obtain ⟨c₀, hs, hr⟩ := Option.bind_eq_some_iff.mp hr
    obtain ⟨h1, h2⟩ := ih (h.2 c₀ hs) hr
    refine ⟨⟨h.1, ?_⟩, h2⟩
    intro c₀' hs'
    rw [hs] at hs'
    cases hs'
    exact h1

def Cmd.Cancels : Cmd → Event → Prop
  | .unschedule type userData, e => e.type = type ∧ e.userData = userData
  | .remove type, e => e.type = type
  | .schedule .., _ => False

private theorem cancels_stable (cmd : Cmd) : Stable cmd.Cancels := by
  intro a b ⟨ht, hu, _⟩ ha
  cases cmd with
  | schedule => exact ha
  | unschedule type userData => exact ⟨ht ▸ ha.1, hu ▸ ha.2⟩
  | remove type => exact ht.symm.trans ha

private theorem cancelled_of_erase {p : Event → Prop} {q : Event → Bool} (hi : Inv c)
    (hq : ∀ e, p e → q e = true) (hts : ∀ k, ∀ e ∈ (c.timing.timers k).tsQueue, ¬ p e) :
    Cancelled p c.timing.nextSerial { c with timing := c.timing.eraseEvents q } := by
  unfold eraseEvents
  rw [if_neg (by rw [hi.unlocked]; decide)]
  refine ⟨le_rfl, ?_⟩
  intro k e he hpe
  rcases List.mem_append.mp he with he | he
  · have := (List.mem_filter.mp he).2
    simp [hq e hpe] at this
  · exact absurd hpe (hts k e he)

private theorem cancelled_of_cmd {cmd : Cmd} (hi : Inv c) (h : c.step (.cmd cmd) = some c')
    (ho : Orderly c (.cmd cmd)) : Cancelled cmd.Cancels c.timing.nextSerial c' ∧ c'.delivered = c.delivered := by
  simp only [Config.step] at h
  split at h <;> cases h
  refine ⟨?_, rfl⟩
  cases cmd with
  | schedule cycles type userData coreId threadSafe =>
    refine ⟨?_, fun _ _ _ h => h.elim⟩
    show c.timing.nextSerial ≤ (c.timing.scheduleEvent cycles type userData coreId threadSafe).nextSerial
    unfold scheduleEvent
    dsimp only
    split_ifs <;> simp [pushTs]
  | unschedule type userData =>
    apply cancelled_of_erase hi
    · intro e he; simp [he.1, he.2]
    · exact ho
  | remove type =>
    apply cancelled_of_erase hi
    · intro e he; simp [show e.type = type from he]
    · exact ho

/-- What a run guarantees: no event is delivered twice, an `Advance` delivers in order and leaves no due event
behind, and a cancelled event is not delivered later. -/
structure EventDelivery (start : Config) (acts : List Act) (c : Config) : Prop where
  once : (c.delivered.map Event.serial).Nodup
  ordered : ∀ core events, c.advancing = some (core, events) → events.reverse.Pairwise Event.le
  exhausted : ∀ pre c₀ core events, acts = pre ++ [.endAdvance] → start.run pre = some c₀ →
    c₀.advancing = some (core, events) →
      ∀ e ∈ (c.timing.timers core).eventQueue, (c.timing.timers core).executedTicks < e.time
  cancelled : ∀ pre cmd post c₀, acts = pre ++ .cmd cmd :: post → start.run pre = some c₀ →
    ∃ later, c.delivered = later ++ c₀.delivered ∧ ∀ e ∈ later, cmd.Cancels e → c₀.timing.nextSerial ≤ e.serial

private theorem endAdvance_exhausts {core : Nat} {events : List Event} (hi : Inv c)
    (ha : c.advancing = some (core, events)) (h : c.step .endAdvance = some c') :
    ∀ e ∈ (c'.timing.timers core).eventQueue, (c'.timing.timers core).executedTicks < e.time := by
  simp only [Config.step, ha] at h
  split at h <;> cases h
  rename_i hpop
  intro e he
  simp only [setTimer_self] at he ⊢
  exact Timer.popDue_none (hi.heap core).sorted hpop e he

/-- Event delivery in every run whose steps meet the condition. -/
theorem run_eventDelivery (numCores : Nat) (baseTicks : Int) (acts : List Act) (c : Config)
    (h : (Config.init numCores baseTicks).run acts = some c)
    (ho : OrderlyRun (Config.init numCores baseTicks) acts) :
    EventDelivery (Config.init numCores baseTicks) acts c := by
  have hi := run_inv (inv_init numCores baseTicks) ho h
  refine ⟨hi.accounted.once, ?_, ?_, ?_⟩
  · intro core events ha
    exact List.pairwise_reverse.mpr (hi.order core events ha).ordered
  · rintro pre c₀ core events rfl hpre ha
    obtain ⟨c₁, h1, h2⟩ := run_append h
    rw [hpre] at h1
    cases h1
    obtain ⟨c₂, hs, hr⟩ := Option.bind_eq_some_iff.mp h2
    cases hr
    have hi₀ := run_inv (inv_init numCores baseTicks) (orderlyRun_append ho hpre).1 hpre
    exact endAdvance_exhausts hi₀ ha hs
  · rintro pre cmd post c₀ rfl hpre
    obtain ⟨c₁, h1, h2⟩ := run_append h
    rw [hpre] at h1
    cases h1
    obtain ⟨ho₁, ho₂⟩ := orderlyRun_append ho hpre
    have hi₀ := run_inv (inv_init numCores baseTicks) ho₁ hpre
    obtain ⟨c₂, hs, hr⟩ := Option.bind_eq_some_iff.mp h2
    obtain ⟨hc, hd⟩ := cancelled_of_cmd hi₀ hs ho₂.1
    have hi₂ := inv_step hi₀ (step_effect hs ho₂.1)
    obtain ⟨later, hl, hle⟩ := run_cancelled (cancels_stable cmd) hi₂ hc (ho₂.2 c₂ hs) hr
    exact ⟨later, by rw [hl, hd], hle⟩

/-- A run with two cores: an event waits in the heap, another one is cancelled, and `Advance` delivers the first. -/
def sampleRun : List Act :=
  [.cmd (.schedule 5 0 1 none false), .cmd (.schedule 3 0 2 none false), .cmd (.unschedule 0 1), .addTicks 0 10,
    .beginAdvance 0, .deliver, .endAdvance]

theorem sampleRun_eventDelivery :
    ∃ c, (Config.init 2 0).run sampleRun = some c ∧ c.delivered.map Event.userData = [2] ∧
      EventDelivery (Config.init 2 0) sampleRun c := by
  refine ⟨_, rfl, rfl, run_eventDelivery 2 0 sampleRun _ rfl ?_⟩
  have hidle : ∀ core e events, (none : Option (Nat × List Event)) ≠ some (core, e :: events) := by simp
  refine ⟨fun core e events h => absurd h (hidle core e events), fun c h => ?_⟩
  cases h
  refine ⟨fun core e events h => absurd h (hidle core e events), fun c h => ?_⟩
  cases h
  refine ⟨?_, fun c h => ?_⟩
  · intro core e he
    by_cases hk : core = 0 <;> simp [hk, Config.init, init, scheduleEvent, exec, setTimer] at he
  · cases h
    refine ⟨trivial, fun c h => ⟨trivial, fun c h => ⟨trivial, fun c h => ⟨trivial, fun _ _ => trivial⟩⟩⟩⟩

/-- An event that waits in the thread-safe queue of another core survives `UnscheduleEvent`. -/
def staleRun : List Act :=
  [.cmd (.schedule 0 7 1 (some 1) false), .cmd (.unschedule 7 1), .setCurrentTimer 1, .beginAdvance 1, .deliver]

theorem staleRun_delivers_cancelled :
    ∃ c, (Config.init 2 0).run staleRun = some c ∧ ¬ EventDelivery (Config.init 2 0) staleRun c := by
  refine ⟨_, rfl, fun h => ?_⟩
  obtain ⟨later, hl, hle⟩ := h.cancelled [.cmd (.schedule 0 7 1 (some 1) false)] (.unschedule 7 1)
    [.setCurrentTimer 1, .beginAdvance 1, .deliver] _ rfl rfl
  have hl' : [⟨0, 0, 1, 7, 0⟩] = later ++ [] := hl
  have hlater : later = [⟨0, 0, 1, 7, 0⟩] := by simpa using hl'.symm
  have := hle ⟨0, 0, 1, 7, 0⟩ (by rw [hlater]; simp) ⟨rfl, rfl⟩
  exact absurd this (by decide)

end SweepDSEmu.Timing
