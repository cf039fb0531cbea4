import SweepDSEmu.Audio.Interpolate

/-!
# Resampling a stream that is cut into buffers and frames

`Session` is what a source does with `StepOverSamples`: a buffer is loaded when the one before it is consumed, frames
follow one another, and between these the function is called.  `Session.IsOnePass` compares the samples that were
emitted with one pass over the samples that were loaded.
-/

namespace SweepDSEmu.AudioInterp

variable {α : Type} (fn : UInt64 → α → α → α → α)

def sampleAt (stream : List α) (position : Nat) : Option α := do
  let x0 ← stream[position / 2 ^ 24]?
  let x1 ← stream[position / 2 ^ 24 + 1]?
  let x2 ← stream[position / 2 ^ 24 + 2]?
  some (fn (UInt64.ofNat (position % 2 ^ 24)) x0 x1 x2)

structure Session (α : Type) where
  streams : Streams α
  /-- The samples of all buffers so far. -/
  loaded : List α
  /-- The samples of all frames so far. -/
  emitted : List α

namespace Session

def start (state : State α) : Session α :=
  { streams := { state := state, input := [], output := [] }
    loaded := []
    emitted := [] }

/-- A step of a source; the function is called where `admits` holds. -/
inductive Step (size : Nat) (stepSize : UInt64) (admits : Streams α → Prop) (s : Session α) : Session α → Prop where
  | buffer {samples : List α} (hconsumed : s.streams.input = []) (hne : samples ≠ []) :
      Step size stepSize admits s
        { s with streams := { s.streams with input := samples }, loaded := s.loaded ++ samples }
  | frame : Step size stepSize admits s { s with streams := { s.streams with output := [] } }
  | call {streams : Streams α} (hadmits : admits s.streams)
      (hcall : stepOverSamples fn size stepSize s.streams = some streams) :
      Step size stepSize admits s
        { s with
          streams := streams
          emitted := s.emitted ++ streams.output.drop s.streams.output.length }

def IsOnePass (state : State α) (stepSize : UInt64) (s : Session α) : Prop :=
  (∀ k (hk : k < s.emitted.length),
      sampleAt fn (state.xn2 :: state.xn1 :: s.loaded) (state.fposition.toNat + k * stepSize.toNat) =
        some s.emitted[k]) ∧
    (s.streams.input = [] →
      sampleAt fn (state.xn2 :: state.xn1 :: s.loaded)
        (state.fposition.toNat + s.emitted.length * stepSize.toNat) = Option.none)

end Session

/-- No position that the loop goes on from reaches `2 ^ 64`, and neither does the position that is kept at the end of
the frame. -/
def PositionsFit (size : Nat) (stepSize : UInt64) (s : Streams α) : Prop :=
  ∀ k < size - s.output.length, (s.state.fposition.toNat + k * stepSize.toNat) / 2 ^ 24 < s.input.length →
    if k + 1 < size - s.output.length then s.state.fposition.toNat + (k + 1) * stepSize.toNat < 2 ^ 64
    else (s.state.fposition.toNat + k * stepSize.toNat) % 2 ^ 24 + stepSize.toNat < 2 ^ 64

variable {fn}

theorem sampleAt_eq_none {stream : List α} {position : Nat} (h : stream.length ≤ position / 2 ^ 24 + 2) :
    sampleAt fn stream position = Option.none := by
  unfold sampleAt
  rw [List.getElem?_eq_none h]
  cases stream[position / 2 ^ 24]? with
  | none => rfl
  | some x0 => cases stream[position / 2 ^ 24 + 1]? <;> rfl

theorem sampleAt_of_lt {stream : List α} {position : Nat} (h : position / 2 ^ 24 + 2 < stream.length) :
    sampleAt fn stream position = some (fn (UInt64.ofNat (position % 2 ^ 24)) stream[position / 2 ^ 24]
      stream[position / 2 ^ 24 + 1] stream[position / 2 ^ 24 + 2]) := by
  unfold sampleAt
  rw [List.getElem?_eq_getElem (by omega), List.getElem?_eq_getElem (by omega), List.getElem?_eq_getElem h]
  rfl

theorem sampleAt_drop (stream : List α) (c position : Nat) :
    sampleAt fn (stream.drop c) position = sampleAt fn stream (c * 2 ^ 24 + position) := by
  have hindex : (c * 2 ^ 24 + position) / 2 ^ 24 = c + position / 2 ^ 24 := by omega
  have hfraction : (c * 2 ^ 24 + position) % 2 ^ 24 = position % 2 ^ 24 := by omega
  unfold sampleAt
  rw [hindex, hfraction, List.getElem?_drop, List.getElem?_drop, List.getElem?_drop, Nat.add_assoc, Nat.add_assoc]

theorem sampleAt_append {stream : List α} {position : Nat} {x : α} (h : sampleAt fn stream position = some x)
    (rest : List α) : sampleAt fn (stream ++ rest) position = some x := by
  have hlt : position / 2 ^ 24 + 2 < stream.length := by
    by_contra hge
    rw [sampleAt_eq_none (by omega)] at h
    cases h
  rw [sampleAt_of_lt hlt] at h
  rw [← h, sampleAt_of_lt (by rw [List.length_append]; omega)]
  rw [List.getElem_append_left, List.getElem_append_left, List.getElem_append_left]

private theorem index_toNat (fposition : UInt64) : (fposition / scaleFactor).toNat = fposition.toNat / 2 ^ 24 := by
  have hscale : scaleFactor.toNat = 2 ^ 24 := rfl
  rw [UInt64.toNat_div, hscale]

private theorem fraction_eq (fposition : UInt64) :
    fposition &&& scaleMask = UInt64.ofNat (fposition.toNat % 2 ^ 24) := by
  have hmask : scaleMask.toNat = 2 ^ 24 - 1 := rfl
  apply UInt64.toNat_inj.mp
  rw [UInt64.toNat_and, hmask, Nat.and_two_pow_sub_one_eq_mod, UInt64.toNat_ofNat']
  omega

private theorem stepLoop_succ (input : List α) (stepSize : UInt64) (room inputi : Nat) (fposition : UInt64)
    (output : List α) :
    stepLoop fn input stepSize (room + 1) inputi fposition output =
      match sampleAt fn input fposition.toNat with
      | Option.none => some (input.length - 2, fposition, output)
      | some x => stepLoop fn input stepSize room (fposition.toNat / 2 ^ 24) (fposition + stepSize) (output ++ [x]) := by
  rw [stepLoop]
  rw [index_toNat]
  by_cases hend : fposition.toNat / 2 ^ 24 + 2 ≥ input.length
  · rw [if_pos hend, sampleAt_eq_none hend]
  · rw [if_neg hend, sampleAt_of_lt (by omega), List.getElem?_eq_getElem (by omega),
      List.getElem?_eq_getElem (by omega), List.getElem?_eq_getElem (by omega), fraction_eq]
    rfl

private theorem stepLoop_returns {input : List α} {stepSize : UInt64} {room inputi : Nat} {fposition : UInt64}
    {output : List α} (hinputi : inputi + 2 ≤ input.length) :
    ∃ i p out, stepLoop fn input stepSize room inputi fposition output = some (i, p, output ++ out) ∧
      i + 2 ≤ input.length ∧ out.length ≤ room ∧ (out.length = room ∨ i + 2 = input.length) := by
  induction room generalizing inputi fposition output with
  | zero => exact ⟨inputi, fposition, [], by rw [stepLoop, List.append_nil], hinputi, le_rfl, .inl rfl⟩
  | succ room ih =>
    rw [stepLoop_succ]
    cases hsample : sampleAt fn input fposition.toNat with
    | none =>
      exact ⟨input.length - 2, fposition, [], by rw [List.append_nil], by omega, Nat.zero_le _, .inr (by omega)⟩
    | some x =>
      have hlt : fposition.toNat / 2 ^ 24 + 2 < input.length := by
        by_contra hge
        rw [sampleAt_eq_none (by omega)] at hsample
        cases hsample
      obtain ⟨i, p, out, heq, hi, hle, hend⟩ := @ih (fposition.toNat / 2 ^ 24) (fposition + stepSize)
        (output ++ [x]) (by omega)
      refine ⟨i, p, x :: out, ?_, hi, Nat.succ_le_succ hle, ?_⟩
      · dsimp only
        rw [heq, List.append_assoc]
        rfl
      · rcases hend with hend | hend
        · exact .inl (by rw [List.length_cons, hend])
        · exact .inr hend

private theorem lastIndex_le {n position : Nat} (h : n ≤ position / 2 ^ 24 + 2) : (n - 2) * 2 ^ 24 ≤ position := by
  omega

private theorem kept_lt {position step : Nat} {c : Prop} [Decidable c]
    (h : if c then position + step < 2 ^ 64 else position % 2 ^ 24 + step < 2 ^ 64) :
    position + step < position / 2 ^ 24 * 2 ^ 24 + 2 ^ 64 := by
  split at h <;> omega

private theorem stepLoop_passes {input : List α} {stepSize : UInt64} {room inputi position : Nat} {output : List α}
    (hinputi : inputi + 2 ≤ input.length) (hle : inputi * 2 ^ 24 ≤ position)
    (hlt : position < inputi * 2 ^ 24 + 2 ^ 64) (hposition : 0 < room → position < 2 ^ 64)
    (hfit : ∀ k < room, (position + k * stepSize.toNat) / 2 ^ 24 + 2 < input.length →
      if k + 1 < room then position + (k + 1) * stepSize.toNat < 2 ^ 64
      else (position + k * stepSize.toNat) % 2 ^ 24 + stepSize.toNat < 2 ^ 64) :
    ∃ i out, stepLoop fn input stepSize room inputi (UInt64.ofNat position) output =
        some (i, UInt64.ofNat (position + out.length * stepSize.toNat), output ++ out) ∧
      i * 2 ^ 24 ≤ position + out.length * stepSize.toNat ∧
      position + out.length * stepSize.toNat < i * 2 ^ 24 + 2 ^ 64 ∧ i + 2 ≤ input.length ∧
      ∀ k (hk : k < out.length), sampleAt fn input (position + k * stepSize.toNat) = some out[k] := by
  induction room generalizing inputi position output with
  | zero =>
    refine ⟨inputi, [], ?_, ?_, ?_, hinputi, by simp⟩
    · rw [stepLoop, List.length_nil, Nat.zero_mul, Nat.add_zero, List.append_nil]
    · rwa [List.length_nil, Nat.zero_mul, Nat.add_zero]
    · rwa [List.length_nil, Nat.zero_mul, Nat.add_zero]
  | succ room ih =>
    have hsmall := hposition (Nat.succ_pos room)
    have htoNat : (UInt64.ofNat position).toNat = position := UInt64.toNat_ofNat_of_lt' hsmall
    rw [stepLoop_succ, htoNat]
    by_cases hend : input.length ≤ position / 2 ^ 24 + 2
    · rw [sampleAt_eq_none hend]
      refine ⟨input.length - 2, [], ?_, ?_, ?_, by omega, by simp⟩
      · rw [List.length_nil, Nat.zero_mul, Nat.add_zero, List.append_nil]
      · rw [List.length_nil, Nat.zero_mul]
        exact lastIndex_le hend
      · rw [List.length_nil, Nat.zero_mul]
        exact Nat.lt_of_lt_of_le hsmall (Nat.le_add_left ..)
    · -- the first sample, and the positions behind it
      have hfirst := hfit 0 (Nat.succ_pos room) (by rw [Nat.zero_mul]; omega)
      rw [Nat.zero_mul, Nat.zero_add, Nat.one_mul, Nat.add_zero] at hfirst
      have hnext : UInt64.ofNat position + stepSize = UInt64.ofNat (position + stepSize.toNat) := by
        apply UInt64.toNat_inj.mp
        rw [UInt64.toNat_add, htoNat, UInt64.toNat_ofNat']
      have hshift (k : Nat) : position + stepSize.toNat + k * stepSize.toNat = position + (k + 1) * stepSize.toNat := by
        ring
      obtain ⟨x, hx⟩ : ∃ x, sampleAt fn input position = some x := ⟨_, sampleAt_of_lt (by omega)⟩
      obtain ⟨i, out, heq, hi, hi', hilen, hout⟩ := @ih (position / 2 ^ 24)
        (position + stepSize.toNat) (output ++ [x]) (by omega)
        (Nat.le_add_right_of_le (Nat.div_mul_le_self ..)) (kept_lt hfirst)
        (by
          intro hroom
          rw [if_pos (by omega)] at hfirst
          exact hfirst)
        (by
          intro k hk hlen
          have hk' := hfit (k + 1) (by omega) (by rwa [← hshift])
          rw [hshift, hshift]
          split
          · rwa [if_pos (by omega)] at hk'
          · rwa [if_neg (by omega)] at hk')
      rw [hshift] at heq hi hi'
      rw [hx]
      refine ⟨i, x :: out, ?_, hi, hi', hilen, ?_⟩
      · dsimp only
        rw [hnext, heq, List.append_assoc]
        rfl
      · intro k hk
        cases k with
        | zero => rwa [Nat.zero_mul]
        | succ k =>
          rw [← hshift]
          exact hout k (by rwa [List.length_cons, Nat.succ_lt_succ_iff] at hk)

def Streams.window (s : Streams α) : List α := s.state.xn2 :: s.state.xn1 :: s.input

private def leftBehind (window : List α) (i : Nat) (fposition : UInt64) (output : List α) : Option (Streams α) := do
  let xn2 ← window[i]?
  let xn1 ← window[i + 1]?
  some
    { state :=
        { xn1 := xn1
          xn2 := xn2
          fposition := fposition - i.toUInt64 * scaleFactor }
      input := window.drop (i + 2)
      output := output }

private theorem stepOverSamples_eq {size : Nat} {stepSize : UInt64} {s : Streams α} (hinput : s.input ≠ []) :
    stepOverSamples fn size stepSize s =
      (stepLoop fn s.window stepSize (size - s.output.length) 0 s.state.fposition s.output).bind
        fun r => leftBehind s.window r.1 r.2.1 r.2.2 := by
  unfold stepOverSamples
  rw [if_neg (by simpa using hinput)]
  rfl

private theorem leftBehind_eq {window : List α} {i : Nat} (hi : i + 2 ≤ window.length) (fposition : UInt64)
    (output : List α) : ∃ r, leftBehind window i fposition output = some r ∧ window.drop i = r.window ∧
      r.state.fposition = fposition - i.toUInt64 * scaleFactor ∧ r.output = output := by
  unfold leftBehind
  rw [List.getElem?_eq_getElem (by omega), List.getElem?_eq_getElem (by omega)]
  refine ⟨_, rfl, ?_, rfl, rfl⟩
  rw [List.drop_eq_getElem_cons (by omega), List.drop_eq_getElem_cons (by omega)]
  rfl

private theorem fposition_sub {i position : Nat} (hle : i * 2 ^ 24 ≤ position) (hlt : position < i * 2 ^ 24 + 2 ^ 64) :
    i * 2 ^ 24 + (UInt64.ofNat position - i.toUInt64 * scaleFactor).toNat = position := by
  have hscale : scaleFactor = UInt64.ofNat (2 ^ 24) := rfl
  have hi : i.toUInt64 = UInt64.ofNat i := rfl
  obtain ⟨rest, rfl⟩ := Nat.exists_eq_add_of_le hle
  rw [hscale, hi, ← UInt64.ofNat_mul, UInt64.ofNat_add, UInt64.add_comm, UInt64.add_sub_cancel, UInt64.toNat_ofNat',
    Nat.mod_eq_of_lt (Nat.lt_of_add_lt_add_left hlt)]

variable (fn) in
/-- A call reads only what it was given; it fills the frame or consumes the input. -/
theorem stepOverSamples_returns {size : Nat} (stepSize : UInt64) {s : Streams α} (hroom : s.output.length ≤ size) :
    ∃ r, stepOverSamples fn size stepSize s = some r ∧ r.output.length ≤ size ∧
      (r.output.length = size ∨ r.input = []) := by
  by_cases hinput : s.input = []
  · exact ⟨s, if_pos (by simpa using hinput), hroom, .inr hinput⟩
  · obtain ⟨i, p, out, hloop, hi, hle, hend⟩ := @stepLoop_returns _ fn s.window stepSize (size - s.output.length) 0 s.state.fposition s.output
      (by simp [Streams.window])
    obtain ⟨r, hr, hdrop, -, houtput⟩ := leftBehind_eq hi p (s.output ++ out)
    refine ⟨r, ?_, ?_, ?_⟩
    · rw [stepOverSamples_eq hinput, hloop, Option.bind_some, hr]
    · rw [houtput, List.length_append]
      omega
    · rcases hend with hend | hend
      · left
        rw [houtput, List.length_append]
        omega
      · right
        have hlength := congrArg List.length hdrop
        rw [List.length_drop] at hlength
        simp only [Streams.window, List.length_cons] at hlength hend
        exact List.length_eq_zero_iff.mp (by omega)

/-- A call with room in the frame emits a sample, or it goes on in the stream by its whole input. -/
theorem stepOverSamples_progress {size : Nat} {stepSize : UInt64} {s r : Streams α} (hroom : s.output.length < size)
    (hcall : stepOverSamples fn size stepSize s = some r) :
    s.output.length < r.output.length ∨ (r.output = s.output ∧ r.input = [] ∧
      r.state.fposition.toNat / 2 ^ 24 + s.input.length = s.state.fposition.toNat / 2 ^ 24) := by
  by_cases hinput : s.input = []
  · unfold stepOverSamples at hcall
    rw [if_pos (by simpa using hinput)] at hcall
    cases hcall
    exact .inr ⟨rfl, hinput, by rw [hinput]; rfl⟩
  · obtain ⟨room, hsize⟩ : ∃ room, size - s.output.length = room + 1 := ⟨size - s.output.length - 1, by omega⟩
    rw [stepOverSamples_eq hinput, hsize, stepLoop_succ] at hcall
    cases hsample : sampleAt fn s.window s.state.fposition.toNat with
    | none =>
      -- the loop ends at once
      right
      have hend : s.window.length ≤ s.state.fposition.toNat / 2 ^ 24 + 2 := by
        by_contra hlt
        rw [sampleAt_of_lt (by omega)] at hsample
        cases hsample
      have hlength : s.window.length = s.input.length + 2 := rfl
      obtain ⟨r', hr', hdrop, hfposition, houtput⟩ := @leftBehind_eq _ s.window (s.window.length - 2)
        (by omega) s.state.fposition s.output
      rw [hsample, Option.bind_some, hr'] at hcall
      cases hcall
      have hrest := congrArg List.length hdrop
      rw [List.length_drop] at hrest
      have hsub := fposition_sub (lastIndex_le hend) (Nat.lt_add_left _ s.state.fposition.toNat_lt)
      rw [UInt64.ofNat_toNat, ← hfposition] at hsub
      refine ⟨houtput, List.length_eq_zero_iff.mp ?_, ?_⟩
      · simp only [Streams.window, List.length_cons] at hrest
        omega
      · omega
    | some x =>
      left
      rw [hsample] at hcall
      have hlt : s.state.fposition.toNat / 2 ^ 24 + 2 ≤ s.window.length := by
        by_contra hge
        rw [sampleAt_eq_none (by omega)] at hsample
        cases hsample
      obtain ⟨i, p, out, hloop, hi, -⟩ := @stepLoop_returns _ fn _ stepSize room _ (s.state.fposition + stepSize)
        (s.output ++ [x]) hlt
      obtain ⟨r', hr', -, -, houtput⟩ := leftBehind_eq hi p (s.output ++ [x] ++ out)
      dsimp only at hcall
      rw [hloop, Option.bind_some, hr'] at hcall
      cases hcall
      rw [houtput, List.length_append, List.length_append, List.length_singleton]
      omega

theorem stepOverSamples_passes {size : Nat} {stepSize : UInt64} {s r : Streams α}
    (hfit : PositionsFit size stepSize s) (hcall : stepOverSamples fn size stepSize s = some r) :
    ∃ i out, s.window.drop i = r.window ∧
      i * 2 ^ 24 + r.state.fposition.toNat = s.state.fposition.toNat + out.length * stepSize.toNat ∧
      r.output = s.output ++ out ∧
      ∀ k (hk : k < out.length),
        sampleAt fn s.window (s.state.fposition.toNat + k * stepSize.toNat) = some out[k] := by
  by_cases hinput : s.input = []
  · unfold stepOverSamples at hcall
    rw [if_pos (by simpa using hinput)] at hcall
    cases hcall
    exact ⟨0, [], rfl, by simp, by simp, by simp⟩
  · rw [stepOverSamples_eq hinput] at hcall
    obtain ⟨i, out, hloop, hle, hlt, hi, hout⟩ := @stepLoop_passes _ fn s.window stepSize (size - s.output.length) 0
      s.state.fposition.toNat s.output
      (by simp [Streams.window]) (by simp) (Nat.lt_add_left _ s.state.fposition.toNat_lt)
      (fun _ => s.state.fposition.toNat_lt)
      (by
        intro k hk hlen
        exact hfit k hk (by simpa [Streams.window] using hlen))
    rw [UInt64.ofNat_toNat] at hloop
    obtain ⟨r', hr', hdrop, hfposition, houtput⟩ := leftBehind_eq hi
      (UInt64.ofNat (s.state.fposition.toNat + out.length * stepSize.toNat)) (s.output ++ out)
    rw [hloop, Option.bind_some, hr'] at hcall
    cases hcall
    refine ⟨i, out, hdrop, ?_, houtput, hout⟩
    rw [hfposition]
    exact fposition_sub hle hlt

namespace Session

/-- The stream that a pass goes over: the history of the first call and the loaded samples. -/
def stream (state : State α) (s : Session α) : List α := state.xn2 :: state.xn1 :: s.loaded

/-- The pass goes on `skipped` samples behind the begin of the stream. -/
structure Follows (fn : UInt64 → α → α → α → α) (size : Nat) (state : State α) (stepSize : UInt64) (s : Session α)
    (skipped : Nat) : Prop where
  window : (s.stream state).drop skipped = s.streams.window
  position : skipped * 2 ^ 24 + s.streams.state.fposition.toNat =
    state.fposition.toNat + s.emitted.length * stepSize.toNat
  emitted : ∀ k (hk : k < s.emitted.length),
    sampleAt fn (s.stream state) (state.fposition.toNat + k * stepSize.toNat) = some s.emitted[k]
  room : s.streams.output.length ≤ size

variable {size : Nat} {state : State α} {stepSize : UInt64} {s t : Session α} {skipped : Nat}

private theorem start_follows : (start state).Follows fn size state stepSize 0 where
  window := rfl
  position := by simp [start]
  emitted := by simp [start]
  room := Nat.zero_le _

private theorem Follows.buffer (h : s.Follows fn size state stepSize skipped) (hconsumed : s.streams.input = [])
    (samples : List α) :
    Follows fn size state stepSize
      { s with streams := { s.streams with input := samples }, loaded := s.loaded ++ samples } skipped where
  window := by
    have hwindow := h.window
    have hle : skipped ≤ (s.stream state).length := by
      by_contra hlt
      rw [List.drop_eq_nil_of_le (by omega)] at hwindow
      cases hwindow
    have hstream : stream state { s with streams := { s.streams with input := samples }, loaded := s.loaded ++ samples } =
        s.stream state ++ samples := rfl
    rw [hstream, List.drop_append_of_le_length hle, hwindow]
    simp [Streams.window, hconsumed]
  position := h.position
  emitted := by
    intro k hk
    exact sampleAt_append (h.emitted k hk) samples
  room := h.room

private theorem Follows.call (h : s.Follows fn size state stepSize skipped) {streams : Streams α}
    (hfit : PositionsFit size stepSize s.streams) (hcall : stepOverSamples fn size stepSize s.streams = some streams) :
    ∃ skipped', Follows fn size state stepSize
      { s with streams := streams, emitted := s.emitted ++ streams.output.drop s.streams.output.length } skipped' := by
  obtain ⟨i, out, hwindow, hposition, houtput, hout⟩ := stepOverSamples_passes hfit hcall
  obtain ⟨r, hr, hroom, -⟩ := stepOverSamples_returns fn stepSize h.room
  rw [hcall] at hr
  cases hr
  have hnew : streams.output.drop s.streams.output.length = out := by rw [houtput, List.drop_left]
  have hold := h.position
  rw [hnew]
  refine ⟨skipped + i, ?_, ?_, ?_, hroom⟩
  · exact (List.drop_drop ..).symm.trans ((congrArg (List.drop i) h.window).trans hwindow)
  · rw [List.length_append, Nat.add_mul, Nat.add_mul, Nat.add_assoc, hposition, ← Nat.add_assoc, hold, Nat.add_assoc]
  · intro k hk
    by_cases hlt : k < s.emitted.length
    · rw [List.getElem_append_left hlt]
      exact h.emitted k hlt
    · -- an output of this call, counted from its first one
      obtain ⟨k, rfl⟩ := Nat.exists_eq_add_of_le (Nat.le_of_not_lt hlt)
      rw [List.length_append] at hk
      have hsample := hout k (by omega)
      rw [← h.window, sampleAt_drop, ← Nat.add_assoc, hold, Nat.add_assoc, ← Nat.add_mul] at hsample
      rw [List.getElem_append_right (by omega)]
      simp only [Nat.add_sub_cancel_left]
      exact hsample

private theorem step_follows (hstep : Step fn size stepSize (PositionsFit size stepSize) s t)
    (h : ∃ skipped, s.Follows fn size state stepSize skipped) : ∃ skipped, t.Follows fn size state stepSize skipped := by
  obtain ⟨skipped, h⟩ := h
  cases hstep with
  | buffer hconsumed hne => exact ⟨skipped, h.buffer hconsumed _⟩
  | frame => exact ⟨skipped, { window := h.window, position := h.position, emitted := h.emitted, room := Nat.zero_le _ }⟩
  | call hadmits hcall => exact h.call hadmits hcall

private theorem run_follows
    (hrun : Relation.ReflTransGen (Step fn size stepSize (PositionsFit size stepSize)) (start state) s) :
    ∃ skipped, s.Follows fn size state stepSize skipped := by
  induction hrun with
  | refl => exact ⟨0, start_follows⟩
  | tail _ hstep ih => exact step_follows hstep ih

private theorem Follows.isOnePass (h : s.Follows fn size state stepSize skipped) : s.IsOnePass fn state stepSize := by
  refine ⟨h.emitted, ?_⟩
  intro hconsumed
  have hnone : sampleAt fn s.streams.window s.streams.state.fposition.toNat = Option.none :=
    sampleAt_eq_none (by simp [Streams.window, hconsumed])
  rw [← h.window, sampleAt_drop, h.position] at hnone
  exact hnone

/-- A run in which the positions fit emits the samples of one pass, and each of its calls reads only what it was given
and goes on to the end of the frame or of the buffer. -/
theorem run_isOnePass (fn : UInt64 → α → α → α → α) (size : Nat) (stepSize : UInt64) (state : State α) (s : Session α)
    (hrun : Relation.ReflTransGen (Step fn size stepSize (PositionsFit size stepSize)) (start state) s) :
    s.IsOnePass fn state stepSize ∧ ∃ r, stepOverSamples fn size stepSize s.streams = some r ∧
      (r.output.length = size ∨ r.input = []) := by
  obtain ⟨skipped, h⟩ := run_follows hrun
  obtain ⟨r, hr, -, hend⟩ := stepOverSamples_returns fn stepSize h.room
  exact ⟨h.isOnePass, r, hr, hend⟩

/-- A frame of two samples from a buffer of three, with a step of one and a half. -/
theorem run_isOnePass_frame :
    let s : Session Nat :=
      { streams :=
          { state := { xn1 := 1, xn2 := 0, fposition := 0x2000000 }
            input := [2, 3]
            output := [0, 0] }
        loaded := [1, 2, 3]
        emitted := [0, 0] }
    s.IsOnePass (fun _ x0 _ _ => x0) { xn1 := 0, xn2 := 0, fposition := 0 } 0x1800000 ∧
      ∃ r, stepOverSamples (fun _ x0 _ _ => x0) 2 0x1800000 s.streams = some r ∧
        (r.output.length = 2 ∨ r.input = []) := by
  have hfit : PositionsFit 2 0x1800000
      { state := { xn1 := 0, xn2 := 0, fposition := 0 }, input := [1, 2, 3], output := ([] : List Nat) } := by
    unfold PositionsFit
    decide +kernel
  exact run_isOnePass (fun _ x0 _ _ => x0) 2 0x1800000 { xn1 := 0, xn2 := 0, fposition := 0 } _
    ((Relation.ReflTransGen.single (.buffer rfl (List.cons_ne_nil 1 [2, 3]))).tail (.call hfit rfl))

/-- `2 ^ 16` samples are skipped at first, and `2 ^ 40 - 2 ^ 16` with each output. -/
private def farState : State StereoSample :=
  { xn1 := ⟨1, 1⟩
    xn2 := ⟨1, 1⟩
    fposition := 0x10000000000 }

private theorem far_call {samples : List StereoSample} (hlength : samples.length = 65537) :
    ∃ r x, stepOverSamples noneSample 160 0xFFFFFF0000000000 { state := farState, input := samples, output := [] } =
      some r ∧ r.output = [x, ⟨1, 1⟩] := by
  have hinput : samples ≠ [] := by
    rintro rfl
    cases hlength
  obtain ⟨x, hfirst⟩ : ∃ x, sampleAt noneSample (Streams.window ⟨farState, samples, []⟩) (2 ^ 40) = some x :=
    ⟨_, sampleAt_of_lt (by simp [Streams.window, hlength])⟩
  have hsecond : sampleAt noneSample (Streams.window ⟨farState, samples, []⟩) 0 = some ⟨1, 1⟩ :=
    sampleAt_of_lt (by simp [Streams.window, hlength])
  have hend : sampleAt noneSample (Streams.window ⟨farState, samples, []⟩) 0xFFFFFF0000000000 = Option.none :=
    sampleAt_eq_none (by simp [Streams.window, hlength])
  obtain ⟨r, hr, -, -, houtput⟩ := @leftBehind_eq _ (Streams.window ⟨farState, samples, []⟩)
    ((Streams.window ⟨farState, samples, []⟩).length - 2) (by simp [Streams.window, hlength])
    0xFFFFFF0000000000 [x, ⟨1, 1⟩]
  refine ⟨r, x, ?_, houtput⟩
  rw [stepOverSamples_eq hinput]
  have hroom : 160 - ([] : List StereoSample).length = 157 + 1 + 1 + 1 := rfl
  have hfar : farState.fposition.toNat = 2 ^ 40 := rfl
  have hwrapped : farState.fposition + 0xFFFFFF0000000000 = 0 := rfl
  rw [hroom, stepLoop_succ, hfar, hfirst]
  dsimp only
  rw [stepLoop_succ, hwrapped, UInt64.toNat_zero, hsecond]
  dsimp only
  rw [stepLoop_succ, UInt64.zero_add]
  have hstep : (0xFFFFFF0000000000 : UInt64).toNat = 0xFFFFFF0000000000 := rfl
  rw [hstep, hend]
  exact hr

/-- The position wraps at `2 ^ 64`, and the pass goes back. -/
theorem run_goesBack : ∃ s, Relation.ReflTransGen (Step noneSample 160 0xFFFFFF0000000000 fun _ => True)
    (start farState) s ∧ ¬ s.IsOnePass noneSample farState 0xFFFFFF0000000000 := by
  obtain ⟨samples, hlength⟩ : ∃ samples : List StereoSample, samples.length = 65537 :=
    ⟨List.replicate 65537 ⟨2, 2⟩, List.length_replicate⟩
  obtain ⟨r, x, hcall, houtput⟩ := far_call hlength
  have hne : samples ≠ [] := by
    rintro rfl
    cases hlength
  refine ⟨_, (Relation.ReflTransGen.single (.buffer rfl hne)).tail (.call trivial hcall), ?_⟩
  rintro ⟨hpass, -⟩
  have hsecond := hpass 1 (by rw [houtput]; exact Nat.lt_succ_self 1)
  rw [sampleAt_eq_none (by simp [start, hlength, farState])] at hsecond
  cases hsecond

end Session

end SweepDSEmu.AudioInterp
