import SweepDSEmu.Audio.SourceFrames

/-!
# What is erased from the buffers of a source

The samples in front of the play position are erased from a buffer that is played for the first time.  The play position
comes from the application, and is not compared with the length of the decoded buffer.
-/

namespace SweepDSEmu.AudioHLE

variable {pq : BufferQueue} {conversions : Conversions} {memory : Memory}

/-- The buffer that would be taken is not shorter than what is erased from it. -/
def TakesWithin (memory : Memory) (s : SourceState pq) : Prop :=
  ∀ buf data, Dequeues memory s buf data → (playStart buf).toNat ≤ playLength buf

/-- The buffers that a tick takes are not shorter than what is erased from them: the one in front of an empty frame, or
those of the turns of the loop. -/
def TickTakesWithin (conversions : Conversions) (input : TickInput) (s : Source pq) : Prop :=
  ∀ config t, parseConfig input.memory input.config input.adpcmCoeffs s = .ok (config, t) → t.state.enabled = true →
    if t.state.currentBuffer = [] then TakesWithin input.memory t.state
    else
      ∀ u, BoundedLoop.Reaches frameFinished (frameTurn conversions input.memory)
        { state := t.state, frame := [], left := false } u → frameFinished u = false → TakesWithin input.memory u.state

def ErasesWithin (fault : Fault) : Prop := fault ≠ .erasePastEnd

theorem dequeueBuffer_within {s : SourceState pq} (hempty : s.currentBuffer = []) (hwithin : TakesWithin memory s) :
    Outcome ErasesWithin (fun _ => True) (dequeueBuffer memory s) := by
  refine ((dequeueBuffer_outcome _ hempty).weaken ?_).mono fun _ _ => trivial
  rintro e (rfl | ⟨rfl, buf, data, htakes, hlt⟩)
  · exact nofun
  · have hle := hwithin buf data htakes
    omega

private theorem resample_within {fn : UInt64 → AudioInterp.StereoSample → AudioInterp.StereoSample →
    AudioInterp.StereoSample → AudioInterp.StereoSample} (s : FrameLoop pq) :
    Outcome ErasesWithin (fun _ => True) (resample conversions fn s) := by
  refine Outcome.ite ?_ fun _ => nofun
  intro _
  split
  · exact nofun
  · trivial

private theorem interpolate_within (s : FrameLoop pq) :
    Outcome ErasesWithin (fun _ => True) (interpolate conversions s) := by
  unfold interpolate
  cases s.state.interpolationMode with
  | polyphase => exact resample_within s
  | linear => exact resample_within s
  | none => exact resample_within s
  | unknown byte => trivial

variable (conversions) in
private theorem frameTurn_within {s : FrameLoop pq} (hwithin : TakesWithin memory s.state) :
    Outcome ErasesWithin (fun _ => True) (frameTurn conversions memory s) := by
  refine Outcome.ite ?_ fun _ => interpolate_within s
  intro hempty
  refine Outcome.bind (dequeueBuffer_within hempty hwithin) ?_
  rintro ⟨dequeued, state⟩ -
  exact Outcome.ite (fun _ => interpolate_within _) fun _ => trivial

private theorem tick_within {input : TickInput} {s : Source pq} (h : TickTakesWithin conversions input s) (bound : Nat) :
    Outcome ErasesWithin (fun _ => True)
      (tick conversions bound input.memory input.config input.adpcmCoeffs s) := by
  obtain ⟨⟨config, t⟩, hparse⟩ := parseConfig_returns input.memory input.config input.adpcmCoeffs s
  have hframe : Outcome ErasesWithin (fun _ => True) (generateEnabled conversions bound input.memory t) := by
    refine Outcome.ite ?_ fun _ => trivial
    intro henabled
    have hwithin := h config t hparse henabled
    refine Outcome.ite ?_ ?_
    · intro hempty
      rw [if_pos hempty] at hwithin
      refine Outcome.bind (dequeueBuffer_within hempty hwithin) ?_
      rintro ⟨dequeued, state⟩ -
      exact Outcome.ite (fun _ => trivial) fun _ => trivial
    · intro hne
      rw [if_neg hne] at hwithin
      refine Outcome.bind (Outcome.intro (fun _ _ => trivial) ?_) fun _ _ => trivial
      intro fault hfault
      rcases BoundedLoop.run_error hfault with rfl | ⟨u, hreaches, hfinished, hturn⟩
      · exact nofun
      · have houtcome := frameTurn_within conversions (hwithin u hreaches hfinished)
        rw [hturn] at houtcome
        exact houtcome
  unfold tick
  rw [hparse, ok_bind]
  exact Outcome.bind hframe fun _ _ => trivial

/-- A run whose ticks take only such buffers erases only samples that there are. -/
theorem performs_within (conversions : Conversions) (bound : Nat) (ops : List Operation) (s : Source pq)
    (h : RunAdmits conversions (TickTakesWithin conversions) ops s) :
    performs conversions bound ops s ≠ .error .erasePastEnd := by
  induction ops generalizing s with
  | nil => exact nofun
  | cons op ops ih =>
    have hfirst : Outcome ErasesWithin (fun _ => True) (perform conversions bound s op) := by
      cases op with
      | tick input => exact (tick_within (h.1 input rfl) bound).map fun _ _ => trivial
      | reset => trivial
      | sleep => trivial
      | wakeup => trivial
    unfold performs
    rw [List.foldlM_cons]
    cases hresult : perform conversions bound s op with
    | error e =>
      rw [hresult] at hfirst
      intro herror
      cases herror
      exact hfirst rfl
    | ok t => exact ih t (h.2 bound t hresult)

/-- A buffer of one sample is played from its fifth one on. -/
theorem performs_erasesPastEnd :
    performs zeroConversions 0 [.tick (started 0 5)] (initial listQueue) = .error .erasePastEnd := rfl

/-- It is played from its end on; the source is reset then. -/
theorem performs_within_started :
    performs zeroConversions 0 [.tick (started 0 1), .reset, .tick unchanged] (initial listQueue) ≠
      .error .erasePastEnd := by
  refine performs_within zeroConversions 0 _ _ ⟨?_, ?_⟩
  · rintro _ hinput config t hparse -
    cases hinput
    cases hparse
    refine iteInduction (motive := fun p : Prop => p) ?_ fun hne => absurd rfl hne
    rintro - buf data ⟨-, ⟨inputQueue, hpop⟩, -⟩
    cases hpop
    decide
  · intro bound s _
    refine ⟨nofun, ?_⟩
    intro bound' t ht
    cases ht
    refine ⟨?_, fun _ _ _ => trivial⟩
    rintro _ hinput config t hparse henabled
    cases hinput
    cases hparse
    cases henabled

end SweepDSEmu.AudioHLE
