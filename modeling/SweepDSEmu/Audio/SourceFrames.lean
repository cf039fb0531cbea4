import SweepDSEmu.Audio.Resampling
import SweepDSEmu.Audio.Source

/-!
# The frames of a source end

A turn of the loop in `GenerateFrame` emits samples, or goes on in the stream without emitting one, or takes a buffer
from the queue.  The last one is no progress when the buffer is put back into the queue and has no samples: such a
buffer is taken again and again.  `performs_ends` is the run in which that does not happen.  An interpolation mode without
a function is another loop that does not end: `frameLoop_unknown`.
-/

namespace SweepDSEmu.AudioHLE

open AudioInterp (StereoSample)

variable {pq : BufferQueue} {conversions : Conversions} {memory : Memory}

def Ends (fault : Fault) : Prop := fault ≠ .outOfTurns

def skipped (s : FrameLoop pq) : Nat := s.state.interpState.fposition.toNat / 2 ^ 24

theorem resample_progress {fn : UInt64 → StereoSample → StereoSample → StereoSample → StereoSample} {s : FrameLoop pq}
    (hroom : s.frame.length < samplesPerFrame) :
    Outcome Ends (fun t => t.state.inputQueue = s.state.inputQueue ∧
        t.state.interpolationMode = s.state.interpolationMode ∧ t.left = s.left ∧
        (s.frame.length < t.frame.length ∨
          (t.frame = s.frame ∧ skipped t + s.state.currentBuffer.length = skipped s)))
      (resample conversions fn s) := by
  refine Outcome.ite ?_ fun _ => nofun
  intro _
  cases hcall : AudioInterp.stepOverSamples fn samplesPerFrame (stepSize conversions s.state.rateMultiplier)
      { state := s.state.interpState, input := s.state.currentBuffer, output := s.frame } with
  | none => exact nofun
  | some r =>
    refine ⟨rfl, rfl, rfl, ?_⟩
    rcases AudioInterp.stepOverSamples_progress hroom hcall with hlt | ⟨houtput, -, hskipped⟩
    · exact .inl hlt
    · exact .inr ⟨houtput, hskipped⟩

def KnownMode (mode : InterpolationMode) : Prop := ∀ byte, mode ≠ .unknown byte

variable (conversions) in
theorem interpolate_known {s : FrameLoop pq} (h : KnownMode s.state.interpolationMode) :
    ∃ fn, interpolate conversions s = resample conversions fn s := by
  unfold interpolate
  cases hmode : s.state.interpolationMode with
  | polyphase => exact ⟨AudioInterp.linearSample, rfl⟩
  | linear => exact ⟨AudioInterp.linearSample, rfl⟩
  | none => exact ⟨AudioInterp.noneSample, rfl⟩
  | unknown byte => exact absurd hmode (h byte)

/-- The number of samples that a buffer is decoded to. -/
def playLength (buf : Buffer) : Nat :=
  match buf.format with
  | .PCM8 => buf.length.toNat
  | .PCM16 => buf.length.toNat
  | .ADPCM => Codec.retSize buf.length.toNat
  | .unknown => 0

def playStart (buf : Buffer) : UInt32 := if buf.hasPlayed then 0 else buf.playPosition

def Dequeues (memory : Memory) (s : SourceState pq) (buf : Buffer) (data : Nat → UInt8) : Prop :=
  s.currentBuffer = [] ∧ (∃ inputQueue, pq.pop s.inputQueue = some (buf, inputQueue)) ∧
    memory (buf.physicalAddress &&& 0xFFFFFFFC) = some data

theorem erasePrefix_outcome (buffer : List StereoSample) (count : Nat) :
    Outcome (fun e => e = .erasePastEnd ∧ buffer.length < count) (fun rest => rest.length + count = buffer.length)
      (erasePrefix buffer count) := by
  refine Outcome.ite ?_ ?_
  · intro hle
    rw [Outcome, List.length_drop]
    omega
  · intro hlt
    exact ⟨rfl, by omega⟩

theorem decodeBuffer_outcome {s : SourceState pq} (hempty : s.currentBuffer = []) (buf : Buffer) (data : Nat → UInt8) :
    Outcome (· = .overflow) (fun t => t.currentBuffer.length = playLength buf ∧ t.inputQueue = s.inputQueue ∧
      t.interpolationMode = s.interpolationMode ∧ t.interpState = s.interpState) (decodeBuffer buf data s) := by
  unfold decodeBuffer playLength
  cases buf.format with
  | PCM8 => exact ⟨Codec.length_decodePCM8 .., rfl, rfl, rfl⟩
  | PCM16 => exact ⟨Codec.length_decodePCM16 .., rfl, rfl, rfl⟩
  | ADPCM =>
    cases hdecode : Codec.decodeADPCM data buf.length.toNat s.adpcmCoeffs s.adpcmState with
    | none => rfl
    | some r => exact ⟨Codec.length_decodeADPCM hdecode, rfl, rfl, rfl⟩
  | unknown => exact ⟨by rw [hempty]; rfl, rfl, rfl, rfl⟩

theorem playBuffer_outcome {s : SourceState pq} (hempty : s.currentBuffer = []) (buf : Buffer) (data : Nat → UInt8) :
    Outcome (fun e => e = .overflow ∨ (e = .erasePastEnd ∧ playLength buf < (playStart buf).toNat))
      (fun t => t.currentBuffer.length + (playStart buf).toNat = playLength buf ∧
        t.inputQueue = (if buf.isLooping then pq.push { buf with hasPlayed := true } s.inputQueue else s.inputQueue) ∧
        t.interpolationMode = s.interpolationMode ∧ t.interpState = s.interpState)
      (playBuffer buf data s) := by
  refine Outcome.bind ((decodeBuffer_outcome hempty buf data).weaken fun e he => .inl he) ?_
  rintro t ⟨hlength, hqueue, hmode, hinterp⟩
  refine Outcome.bind ((erasePrefix_outcome t.currentBuffer (playStart buf).toNat).weaken ?_) ?_
  · rintro e ⟨rfl, hlt⟩
    exact .inr ⟨rfl, hlength ▸ hlt⟩
  · intro rest hrest
    exact ⟨hrest.trans hlength, by rw [hqueue], hmode, hinterp⟩

def Dequeued (memory : Memory) (s t : SourceState pq) : Prop :=
  ∃ buf inputQueue, pq.pop s.inputQueue = some (buf, inputQueue) ∧
    ((memory (buf.physicalAddress &&& 0xFFFFFFFC) = none ∧ t.currentBuffer = [] ∧ t.inputQueue = inputQueue) ∨
      ((∃ data, memory (buf.physicalAddress &&& 0xFFFFFFFC) = some data) ∧
        t.currentBuffer.length + (playStart buf).toNat = playLength buf ∧
        t.inputQueue = if buf.isLooping then pq.push { buf with hasPlayed := true } inputQueue else inputQueue))

variable (memory) in
theorem dequeueBuffer_outcome {s : SourceState pq} (hempty : s.currentBuffer = []) :
    Outcome (fun e => e = .overflow ∨
        (e = .erasePastEnd ∧ ∃ buf data, Dequeues memory s buf data ∧ playLength buf < (playStart buf).toNat))
      (fun r => r.2.interpolationMode = s.interpolationMode ∧ r.2.interpState = s.interpState ∧
        ((r.1 = false ∧ pq.pop s.inputQueue = none ∧ r.2.inputQueue = s.inputQueue) ∨ (r.1 = true ∧ Dequeued memory s r.2)))
      (dequeueBuffer memory s) := by
  unfold dequeueBuffer
  rw [if_neg (by simpa using hempty)]
  cases hpop : pq.pop s.inputQueue with
  | none => exact ⟨rfl, rfl, .inl ⟨rfl, rfl, rfl⟩⟩
  | some r =>
    obtain ⟨buf, inputQueue⟩ := r
    have hhistory : (loadHistory buf { s with inputQueue := inputQueue }).currentBuffer = [] ∧
        (loadHistory buf { s with inputQueue := inputQueue }).inputQueue = inputQueue ∧
        (loadHistory buf { s with inputQueue := inputQueue }).interpolationMode = s.interpolationMode ∧
        (loadHistory buf { s with inputQueue := inputQueue }).interpState = s.interpState := by
      unfold loadHistory
      split <;> exact ⟨hempty, rfl, rfl, rfl⟩
    obtain ⟨hcurrent, hqueue, hmode, hinterp⟩ := hhistory
    dsimp only
    cases hmemory : memory (buf.physicalAddress &&& 0xFFFFFFFC) with
    | none => exact ⟨hmode, hinterp, .inr ⟨rfl, buf, inputQueue, hpop, .inl ⟨hmemory, rfl, hqueue⟩⟩⟩
    | some data =>
      have hplay := playBuffer_outcome hcurrent buf data
      dsimp only
      cases hresult : playBuffer buf data (loadHistory buf { s with inputQueue := inputQueue }) with
      | error e =>
        rw [hresult] at hplay
        rcases hplay with rfl | ⟨rfl, hlt⟩
        · exact .inl rfl
        · exact .inr ⟨rfl, buf, data, ⟨hempty, ⟨inputQueue, hpop⟩, hmemory⟩, hlt⟩
      | ok t =>
        rw [hresult] at hplay
        obtain ⟨hlength, hqueue', hmode', hinterp'⟩ := hplay
        rw [hqueue] at hqueue'
        exact ⟨hmode'.trans hmode, hinterp'.trans hinterp,
          .inr ⟨rfl, buf, inputQueue, hpop, .inr ⟨⟨data, hmemory⟩, hlength, hqueue'⟩⟩⟩

/-- A buffer that has played counts less than one that has not. -/
def weight (queue : pq.Queue) : Nat := ((pq.elements queue).map fun b => if b.hasPlayed then 1 else 2).sum

private theorem weight_push (b : Buffer) (queue : pq.Queue) :
    weight (pq.push b queue) = (if b.hasPlayed then 1 else 2) + weight queue :=
  ((pq.push_perm b queue).map _).sum_nat

private theorem weight_pop {queue queue' : pq.Queue} {b : Buffer} (hpop : pq.pop queue = some (b, queue')) :
    weight queue = (if b.hasPlayed then 1 else 2) + weight queue' :=
  ((pq.pop_perm queue b queue' hpop).map _).sum_nat

/-- The first buffer of the queue is put back into it and has no samples. -/
def Repeats (memory : Memory) (s : SourceState pq) : Prop :=
  ∃ buf data, Dequeues memory s buf data ∧ buf.isLooping = true ∧ playLength buf = 0

private theorem Dequeued.weight_lt {s t : SourceState pq} (h : Dequeued memory s t) (hempty : s.currentBuffer = [])
    (hrepeats : ¬ Repeats memory s) :
    weight t.inputQueue ≤ weight s.inputQueue ∧
      (t.currentBuffer = [] → weight t.inputQueue < weight s.inputQueue) := by
  obtain ⟨buf, inputQueue, hpop, ⟨-, -, hqueue⟩ | ⟨⟨data, hmemory⟩, hlength, hqueue⟩⟩ := h
  · rw [hqueue, weight_pop hpop]
    split <;> omega
  · cases hloop : buf.isLooping with
    | false =>
      rw [hqueue, hloop, weight_pop hpop, if_neg Bool.false_ne_true]
      split <;> omega
    | true =>
      rw [hqueue, hloop, if_pos rfl, weight_push, weight_pop hpop, if_pos rfl]
      cases hplayed : buf.hasPlayed with
      | false =>
        rw [if_neg Bool.false_ne_true]
        omega
      | true =>
        refine ⟨le_rfl, ?_⟩
        intro hnil
        rw [hnil, playStart, hplayed, if_pos rfl] at hlength
        exact absurd ⟨buf, data, ⟨hempty, ⟨inputQueue, hpop⟩, hmemory⟩, hloop, hlength.symm⟩ hrepeats

def rank (s : FrameLoop pq) : Nat :=
  (samplesPerFrame - s.frame.length) * 2 ^ 40 + skipped s + weight s.state.inputQueue + if s.left then 0 else 1

private theorem skipped_lt (s : FrameLoop pq) : skipped s < 2 ^ 40 := by
  have hlt := s.state.interpState.fposition.toNat_lt
  unfold skipped
  omega

variable (conversions) in
private theorem interpolate_rank (s t : FrameLoop pq) (hroom : s.frame.length < samplesPerFrame)
    (hknown : KnownMode s.state.interpolationMode) (hframe : s.frame = t.frame) (hskipped : skipped s = skipped t)
    (hleft : s.left = t.left) (hle : weight s.state.inputQueue ≤ weight t.state.inputQueue)
    (hlt : s.state.currentBuffer = [] → weight s.state.inputQueue < weight t.state.inputQueue) :
    Outcome Ends (fun u => rank u < rank t ∧ u.state.interpolationMode = s.state.interpolationMode)
      (interpolate conversions s) := by
  obtain ⟨fn, hfn⟩ := interpolate_known conversions hknown
  rw [hfn]
  refine (resample_progress hroom).mono ?_
  rintro u ⟨hqueue, hmode, hleft', hprogress⟩
  refine ⟨?_, hmode⟩
  have hu := skipped_lt u
  unfold rank
  rw [hqueue, hleft', hleft]
  rcases hprogress with hlonger | ⟨hframe', hskipped'⟩
  · rw [hframe] at hlonger hroom
    omega
  · rw [hframe', hframe]
    have hinput : s.state.currentBuffer = [] ∨ 0 < s.state.currentBuffer.length := by
      cases s.state.currentBuffer <;> simp
    rcases hinput with hnil | hpos
    · have := hlt hnil
      omega
    · omega

variable (conversions) in
theorem frameTurn_rank {s : FrameLoop pq} (hfinished : frameFinished s = false)
    (hknown : KnownMode s.state.interpolationMode) (hrepeats : ¬ Repeats memory s.state) :
    Outcome Ends (fun t => rank t < rank s ∧ t.state.interpolationMode = s.state.interpolationMode)
      (frameTurn conversions memory s) := by
  have hroom : s.frame.length < samplesPerFrame ∧ s.left = false := by
    simpa [frameFinished, and_comm] using hfinished
  refine Outcome.ite ?_ ?_
  · intro hempty
    have hdequeue := dequeueBuffer_outcome memory hempty
    refine Outcome.bind (hdequeue.weaken ?_) ?_
    · rintro e (rfl | ⟨rfl, -⟩) <;> exact nofun
    · rintro ⟨dequeued, state⟩ ⟨hmode, hinterp, ⟨hnone, -, hqueue⟩ | ⟨hsome, htaken⟩⟩
      · subst hnone
        refine ⟨?_, hmode⟩
        unfold rank skipped
        rw [hqueue, hinterp, hroom.2]
        simp
      · subst hsome
        obtain ⟨hle, hlt⟩ := htaken.weight_lt hempty hrepeats
        have hstep := interpolate_rank conversions { s with state := state } s hroom.1
          (by intro byte; rw [hmode]; exact hknown byte) rfl (by unfold skipped; rw [hinterp]) rfl hle hlt
        exact hstep.mono fun u hu => ⟨hu.1, hu.2.trans hmode⟩
  · intro hne
    exact interpolate_rank conversions _ _ hroom.1 hknown rfl rfl rfl le_rfl fun h => absurd h hne

def Progresses (conversions : Conversions) (memory : Memory) (s : SourceState pq) : Prop :=
  KnownMode s.interpolationMode ∧
    ∀ t, BoundedLoop.Reaches frameFinished (frameTurn conversions memory) { state := s, frame := [], left := false } t →
      frameFinished t = false → ¬ Repeats memory t.state

private theorem frameLoop_ends {s : SourceState pq} (h : Progresses conversions memory s) :
    ∃ bound, BoundedLoop.run frameFinished (frameTurn conversions memory) Fault.outOfTurns bound
      { state := s, frame := [], left := false } ≠ .error .outOfTurns := by
  have hturn (t : FrameLoop pq)
      (ht : BoundedLoop.Reaches frameFinished (frameTurn conversions memory) { state := s, frame := [], left := false } t ∧
        KnownMode t.state.interpolationMode) (hfinished : frameFinished t = false) :=
    frameTurn_rank conversions hfinished ht.2 (h.2 t ht.1 hfinished)
  have hranked : BoundedLoop.Ranked frameFinished (frameTurn conversions memory)
      (fun t => BoundedLoop.Reaches frameFinished (frameTurn conversions memory) { state := s, frame := [], left := false } t ∧
        KnownMode t.state.interpolationMode) rank := by
    intro t ht hfinished
    refine ((hturn t ht hfinished).value.weaken fun _ _ => trivial).mono ?_
    rintro u ⟨heq, hlt, hmode⟩
    exact ⟨⟨ht.1.tail ⟨hfinished, heq⟩, by intro byte; rw [hmode]; exact ht.2 byte⟩, hlt⟩
  refine ⟨rank { state := s, frame := [], left := false } + 1, ?_⟩
  intro hout
  have houtcome := BoundedLoop.run_outcome Fault.outOfTurns hranked ⟨.refl, h.1⟩
    (Nat.lt_succ_self (rank { state := s, frame := [], left := false }))
  rw [hout] at houtcome
  obtain ⟨t, hreaches, ht, hfinished, herror⟩ := houtcome
  have hends := hturn t ht hfinished
  rw [herror] at hends
  exact hends rfl

private theorem generateFrame_ends {s : Source pq} (h : s.state.currentBuffer ≠ [] → Progresses conversions memory s.state) :
    EndsWith .outOfTurns fun bound => generateFrame conversions bound memory s := by
  unfold generateFrame
  by_cases hempty : s.state.currentBuffer = []
  · simp only [if_pos hempty]
    refine .bind (.of_const ?_) ?_
    · intro hout
      have houtcome := dequeueBuffer_outcome memory hempty
      rw [hout] at houtcome
      rcases houtcome with h | ⟨h, -⟩ <;> cases h
    · intro bound r _
      refine .of_const ?_
      split <;> exact nofun
  · simp only [if_neg hempty]
    exact .bind (.loop (frameLoop_ends (h hempty))) fun _ _ _ => .of_const nofun

/-- The configuration is parsed without a fault: what is erased from a decoded buffer is checked. -/
theorem parseConfig_returns (memory : Memory) (config : Configuration) (adpcmCoeffs : Fin 16 → Int16) (s : Source pq) :
    ∃ r, parseConfig memory config adpcmCoeffs s = .ok r := by
  have hupdate (s : SourceState pq) : ∃ t, updateEmbedded memory config s = .ok t := by
    unfold updateEmbedded
    split
    · split
      · exact ⟨_, rfl⟩
      · split
        · dsimp only
          split
          · exact ⟨_, rfl⟩
          · rename_i hle
            rw [erasePrefix, if_pos (by omega)]
            exact ⟨_, rfl⟩
        · exact ⟨_, rfl⟩
    · exact ⟨_, rfl⟩
  unfold parseConfig
  split
  · exact ⟨_, rfl⟩
  · obtain ⟨t, ht⟩ := hupdate (copySettings config adpcmCoeffs (if config.dirty .reset then reset s else s).state)
    dsimp only
    rw [ht]
    exact ⟨_, rfl⟩

/-- A tick that generates a frame from a buffer makes progress in its loop. -/
def TickProgresses (conversions : Conversions) (input : TickInput) (s : Source pq) : Prop :=
  ∀ config t, parseConfig input.memory input.config input.adpcmCoeffs s = .ok (config, t) → t.state.enabled = true →
    t.state.currentBuffer ≠ [] → Progresses conversions input.memory t.state

private theorem tick_ends {input : TickInput} {s : Source pq} (h : TickProgresses conversions input s) :
    EndsWith .outOfTurns fun bound => tick conversions bound input.memory input.config input.adpcmCoeffs s := by
  obtain ⟨⟨config, t⟩, hparse⟩ := parseConfig_returns input.memory input.config input.adpcmCoeffs s
  have henabled : EndsWith .outOfTurns fun bound => generateEnabled conversions bound input.memory t := by
    unfold generateEnabled
    cases hon : t.state.enabled with
    | false => exact .of_const nofun
    | true => exact generateFrame_ends (h config t hparse hon)
  unfold tick
  rw [hparse]
  exact henabled.bind fun _ _ _ => .of_const nofun

private theorem perform_ends {op : Operation} {s : Source pq}
    (h : ∀ input, op = .tick input → TickProgresses conversions input s) :
    EndsWith .outOfTurns fun bound => perform conversions bound s op := by
  cases op with
  | tick input => exact (tick_ends (h input rfl)).map _
  | reset => exact .of_const nofun
  | sleep => exact .of_const nofun
  | wakeup => exact .of_const nofun

theorem frameLoop_unknown {s : FrameLoop pq} {byte : UInt8} (hmode : s.state.interpolationMode = .unknown byte)
    (hne : s.state.currentBuffer ≠ []) (hfinished : frameFinished s = false) (bound : Nat) :
    BoundedLoop.run frameFinished (frameTurn conversions memory) Fault.outOfTurns bound s = .error .outOfTurns := by
  refine BoundedLoop.run_endless (fun t => t = s) ?_ rfl bound
  rintro _ rfl
  refine ⟨hfinished, _, ?_, rfl⟩
  rw [frameTurn, if_neg hne, interpolate, hmode]

def quiet : Configuration where
  dirtyRaw := 0
  rateMultiplier := Single.one
  interpolationMode := 0
  buffersDirty := 0
  buffers := fun _ => ⟨0, 0, 0, (0, 0), 0, 0, 0⟩
  enable := 1
  syncCount := 0
  playPosition := 0
  physicalAddress := 0x20000000
  length := 1
  flags1Raw := 1
  adpcmPs := 0
  adpcmYn := (0, 0)
  flags2Raw := 0
  bufferId := 1

def started (byte : UInt8) (playPosition : UInt32) : TickInput where
  memory := fun _ => some fun _ => 0
  config := { quiet with dirtyRaw := 0x40230000, interpolationMode := byte, playPosition := playPosition }
  adpcmCoeffs := fun _ => 0

def unchanged : TickInput where
  memory := fun _ => some fun _ => 0
  config := quiet
  adpcmCoeffs := fun _ => 0

def listQueue : BufferQueue := PriorityQueue.ofList _

def zeroConversions : Conversions where
  toU64 := fun _ => 0
  toU32 := fun _ _ => 0

private theorem perform_started :
    ∃ s, (∀ bound, perform zeroConversions bound (initial listQueue) (.tick (started 3 0)) = .ok s) ∧
      s.state.enabled = true ∧ s.state.currentBuffer = [⟨0, 0⟩] ∧ s.state.interpolationMode = .unknown 3 := by
  obtain ⟨s, hs⟩ : ∃ s, perform zeroConversions 0 (initial listQueue) (.tick (started 3 0)) = .ok s := ⟨_, rfl⟩
  refine ⟨s, fun _ => hs, ?_⟩
  cases hs
  exact ⟨rfl, rfl, rfl⟩

end SweepDSEmu.AudioHLE
