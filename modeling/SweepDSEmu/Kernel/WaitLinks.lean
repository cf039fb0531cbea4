import SweepDSEmu.Kernel.WaitOps

/-!
# Steps that leave the waiting lists alone

Between two operations the status of a thread in a waiting list is one of a thread that waits for objects.  Acquiring an
object changes neither the waiting lists nor a status.
-/

namespace SweepDSEmu.WaitKernel

def waitingStatuses : List ThreadStatus := [.waitSynchAny, .waitSynchAll, .waitHleEvent]

section Frame

variable {x : Option ThreadId} {s s' : WaitKernel} {t : ThreadId} {o : ObjectId}

/-- A step that changes neither a waiting list nor a status. -/
structure SameWaits (s s' : WaitKernel) : Prop where
  waitingThreads : s'.waitingThreads = s.waitingThreads
  waitObjects : s'.waitObjects = s.waitObjects
  status : s'.status = s.status
  nextObjectId : s'.nextObjectId = s.nextObjectId

theorem SameWaits.refl (s : WaitKernel) : SameWaits s s := ⟨rfl, rfl, rfl, rfl⟩

theorem SameWaits.trans {s'' : WaitKernel} (h : SameWaits s s') (h' : SameWaits s' s'') : SameWaits s s'' :=
  ⟨h'.waitingThreads.trans h.waitingThreads, h'.waitObjects.trans h.waitObjects, h'.status.trans h.status,
    h'.nextObjectId.trans h.nextObjectId⟩

theorem sameWaits_setObject (s : WaitKernel) (o : ObjectId) (object : WaitObject) :
    SameWaits s (s.setObject o object) := ⟨rfl, rfl, rfl, rfl⟩

theorem sameWaits_acquire (h : s.acquire o t = .ok s') : SameWaits s s' := by
  unfold acquire at h
  split at h
  · split at h
    · cases h
    · cases h
      split
      · exact sameWaits_setObject s o _
      · exact SameWaits.refl s
  · split at h
    · cases h
    · cases h
      split
      · exact sameWaits_setObject s o _
      · exact SameWaits.refl s
  · cases h
    split
    · exact SameWaits.refl s
    · exact sameWaits_setObject s o _
  · split at h
    · cases h
    · split at h
      · cases h
        exact ⟨rfl, rfl, rfl, rfl⟩
      · cases h
        exact sameWaits_setObject s o _
  · split at h
    · cases h
    · split at h
      · cases h
        exact SameWaits.refl s
      · split at h
        · cases h
        · cases h
          exact sameWaits_setObject s o _
  · split at h
    · cases h
    · cases h
      exact SameWaits.refl s
  · split at h
    · cases h
    · cases h
      exact SameWaits.refl s

end Frame

end SweepDSEmu.WaitKernel
