import Mathlib.Tactic.NormNum
import SweepDSEmu.Core.Movie

/-!
# Replaying a movie

What `Play` reads from a controller state that `Record` has packed are the recorded values, so a movie that is saved
and played through calls of the same kinds gives the recorded values, one input after the other, and ends behind the
last one.
-/

namespace SweepDSEmu.Movie

variable {m player : State} {input arg : Input} {inputs args : List Input}

private theorem readWord16_eq {s : List UInt8} {offset : Nat} {x : UInt16}
    (h : number s offset 2 = ofLittleEndian (word16 x)) : readWord16 s offset = x := by
  have hlt : x.toNat < 256 ^ 2 := x.toNat_lt
  rw [readWord16, h, word16, ofLittleEndian_toLittleEndian hlt]
  exact UInt16.ofNat_toNat

private theorem readSigned16_eq {s : List UInt8} {offset : Nat} {x : Int16}
    (h : number s offset 2 = ofLittleEndian (signed16 x)) : readSigned16 s offset = x := by
  rw [readSigned16, readWord16_eq h]
  exact Int16.toInt16_toUInt16 x

private theorem ofLittleEndian_byte {n : Nat} (h : n < 256) : ofLittleEndian [UInt8.ofNat n] = n := by
  simp only [ofLittleEndian, UInt8.toNat_ofNat']
  omega

theorem length_controllerState (input : Input) : input.controllerState.length = stateSize := by
  cases input <;> simp [Input.controllerState, signed16, word16, stateSize]

private theorem buttons_disjoint : buttons.Pairwise BitField.Disjoint := by decide

private theorem hidButtons_disjoint : hidButtons.Pairwise BitField.Disjoint := by decide

private theorem hidCStick_disjoint : hidCStick.Pairwise BitField.Disjoint := by decide

private theorem assign_byte {f : BitField} (hbits : f.bits < 8) {s : List UInt8} {offset storage : Nat}
    (h : number s offset 1 = ofLittleEndian [UInt8.ofNat (f.extractValue storage)]) (old : Nat) :
    f.extractValue (f.assign old (number s offset 1)) = f.extractValue storage := by
  have hlt := f.extractValue_lt storage
  have hbyte : (2 : Nat) ^ f.bits < 2 ^ 8 := Nat.pow_lt_pow_right (by omega) hbits
  rw [BitField.extractValue_assign, h, ofLittleEndian_byte (by omega), Nat.mod_eq_of_lt hlt]

private theorem values_buttons {s : List UInt8} {padState : Nat}
    (h : number s 1 2 = ofLittleEndian (toLittleEndian 2 (BitField.copy buttons padState 0))) (old : Nat) :
    buttons.map (fun f => (f.extractValue (BitField.copy buttons (number s 1 2) old) : Int)) =
      buttons.map fun f => (f.extractValue padState : Int) := by
  have hlt : BitField.copy buttons padState 0 < 2 ^ 16 := BitField.copy_lt (by decide) padState (by decide)
  rw [h, ofLittleEndian_toLittleEndian hlt]
  apply List.map_congr_left
  intro f hf
  rw [BitField.extractValue_copy buttons_disjoint _ _ hf, BitField.extractValue_copy buttons_disjoint _ _ hf]

private theorem values_hid {s : List UInt8} {cStick hid : Nat}
    (h : number s 1 4 = ofLittleEndian (toLittleEndian 4 (BitField.copy hidButtons hid (BitField.copy hidCStick cStick 0))))
    (oldCStick oldHid : Nat) :
    hidButtons.map (fun f => (f.extractValue (BitField.copy hidButtons (number s 1 4) oldHid) : Int)) =
        hidButtons.map (fun f => (f.extractValue hid : Int)) ∧
      hidCStick.map (fun f => (f.extractValue (BitField.copy hidCStick (number s 1 4) oldCStick) : Int)) =
        hidCStick.map fun f => (f.extractValue cStick : Int) := by
  have hstick : BitField.copy hidCStick cStick 0 < 2 ^ 32 := BitField.copy_lt (by decide) cStick (by decide)
  have hlt : BitField.copy hidButtons hid (BitField.copy hidCStick cStick 0) < 2 ^ 32 :=
    BitField.copy_lt (by decide) hid hstick
  have happart : ∀ g ∈ hidCStick, ∀ f ∈ hidButtons, BitField.Disjoint g f := by decide
  rw [h, ofLittleEndian_toLittleEndian hlt]
  constructor
  · apply List.map_congr_left
    intro f hf
    rw [BitField.extractValue_copy hidButtons_disjoint _ _ hf, BitField.extractValue_copy hidButtons_disjoint _ _ hf]
  · apply List.map_congr_left
    intro f hf
    rw [BitField.extractValue_copy hidCStick_disjoint _ _ hf, BitField.extractValue_copy_of_disjoint (happart f hf),
      BitField.extractValue_copy hidCStick_disjoint _ _ hf]

theorem play_controllerState (h : arg.type = input.type) :
    (play input.controllerState arg).type = input.type ∧ (play input.controllerState arg).values = input.values := by
  have hhead : ¬ input.controllerState.head? ≠ some arg.type := by
    rw [h, not_not]
    rfl
  unfold play
  rw [if_neg hhead]
  cases input with
  | padAndCircle padState circlePadX circlePadY =>
    cases arg with
    | padAndCircle old x y =>
      refine ⟨rfl, ?_⟩
      simp only [Input.values]
      rw [values_buttons rfl, readSigned16_eq (x := circlePadX) rfl, readSigned16_eq (x := circlePadY) rfl]
    | _ => simp [Input.type] at h
  | touch x y valid =>
    cases arg with
    | touch x' y' old =>
      refine ⟨rfl, ?_⟩
      simp only [Input.values]
      rw [readWord16_eq (x := x) rfl, readWord16_eq (x := y) rfl, assign_byte (by decide) rfl]
    | _ => simp [Input.type] at h
  | accelerometer x y z =>
    cases arg with
    | accelerometer x' y' z' =>
      refine ⟨rfl, ?_⟩
      simp only [Input.values]
      rw [readSigned16_eq (x := x) rfl, readSigned16_eq (x := y) rfl, readSigned16_eq (x := z) rfl]
    | _ => simp [Input.type] at h
  | gyroscope x y z =>
    cases arg with
    | gyroscope x' y' z' =>
      refine ⟨rfl, ?_⟩
      simp only [Input.values]
      rw [readSigned16_eq (x := x) rfl, readSigned16_eq (x := y) rfl, readSigned16_eq (x := z) rfl]
    | _ => simp [Input.type] at h
  | irRst padState cStickX cStickY =>
    cases arg with
    | irRst old x y =>
      refine ⟨rfl, ?_⟩
      have happart : BitField.Disjoint zl zr := by decide
      simp only [Input.values]
      rw [readSigned16_eq (x := cStickX) rfl, readSigned16_eq (x := cStickY) rfl,
        BitField.extractValue_assign_of_disjoint happart, assign_byte (by decide) rfl, assign_byte (by decide) rfl]
    | _ => simp [Input.type] at h
  | extraHidResponse cStick hid =>
    cases arg with
    | extraHidResponse oldCStick oldHid =>
      refine ⟨rfl, ?_⟩
      obtain ⟨hbuttons, hstick⟩ := values_hid (s := (Input.extraHidResponse cStick hid).controllerState) rfl oldCStick
        oldHid
      simp only [Input.values]
      rw [hbuttons, hstick]
    | _ => simp [Input.type] at h

/-- Calls of `Handle`, one after the other, with the arguments as they leave them. -/
def handleAll (m : State) : List Input → Option (State × List Input)
  | [] => some (m, [])
  | input :: inputs => do
    let (m', input') ← handle m input
    let (m'', inputs') ← handleAll m' inputs
    return (m'', input' :: inputs')

theorem handleAll_append {m' m'' : State} {first second results results' : List Input}
    (h : handleAll m first = some (m', results)) (h' : handleAll m' second = some (m'', results')) :
    handleAll m (first ++ second) = some (m'', results ++ results') := by
  induction first generalizing m results with
  | nil =>
    cases h
    exact h'
  | cons input first ih =>
    obtain ⟨⟨m₁, result⟩, hinput, h⟩ := Option.bind_eq_some_iff.mp h
    obtain ⟨⟨m₂, results₂⟩, hfirst, h⟩ := Option.bind_eq_some_iff.mp h
    cases h
    simp only [List.cons_append, handleAll, hinput, ih hfirst, Option.bind_eq_bind, Option.bind_some]
    rfl

def bytes (inputs : List Input) : List UInt8 := inputs.flatMap Input.controllerState

theorem length_bytes (inputs : List Input) : (bytes inputs).length = stateSize * inputs.length := by
  induction inputs with
  | nil => rfl
  | cons input inputs ih =>
    rw [bytes, List.flatMap_cons, List.length_append, length_controllerState, List.length_cons, Nat.mul_succ, ← ih]
    exact Nat.add_comm _ _

structure Recorded (inputs : List Input) (m : State) : Prop where
  playMode : m.playMode = .recording
  recordedInput : m.recordedInput = bytes inputs
  currentByte : m.currentByte = stateSize * inputs.length

theorem recorded_startRecording (m : State) (id programId : UInt64) :
    Recorded [] (startRecording (shutdown m) id programId) := ⟨rfl, rfl, rfl⟩

theorem Recorded.handle (h : Recorded inputs m) (input : Input) :
    handle m input = some (record m input, input) ∧ Recorded (inputs ++ [input]) (record m input) := by
  have hmode : (record m input).playMode = m.playMode := by
    simp only [record, countInput]
    split <;> rfl
  refine ⟨by simp [Movie.handle, h.playMode], hmode.trans h.playMode, ?_, ?_⟩
  · have hlength := length_bytes inputs
    simp only [record, h.recordedInput, h.currentByte, ← hlength, List.take_length, Nat.sub_self, List.replicate_zero,
      List.append_nil]
    simp [bytes]
  · simp [record, h.currentByte, Nat.mul_succ]

theorem Recorded.handleAll (h : Recorded inputs m) (more : List Input) :
    ∃ m', handleAll m more = some (m', more) ∧ Recorded (inputs ++ more) m' := by
  induction more generalizing inputs m with
  | nil => exact ⟨m, rfl, by rwa [List.append_nil]⟩
  | cons input more ih =>
    obtain ⟨hinput, hrecorded⟩ := h.handle input
    obtain ⟨m', hmore, hrecorded'⟩ := ih hrecorded
    refine ⟨m', ?_, ?_⟩
    · simp only [Movie.handleAll, hinput, hmore, Option.bind_eq_bind, Option.bind_some]
      rfl
    · rwa [List.append_assoc] at hrecorded'

/-- The movie is played, between the inputs that were read and those that are left. -/
structure PlayingAt (done rest : List Input) (m : State) : Prop where
  playMode : m.playMode = .playing
  recordedInput : m.recordedInput = bytes (done ++ rest)
  currentByte : m.currentByte = stateSize * done.length

theorem PlayingAt.handle {done rest : List Input} (h : PlayingAt done (input :: rest) m) (harg : arg.type = input.type) :
    ∃ m' result, handle m arg = some (m', result) ∧ result.type = input.type ∧ result.values = input.values ∧
      if rest = [] then m'.playMode = .movieFinished else PlayingAt (done ++ [input]) rest m' := by
  have hlength := length_bytes done
  have hbytes : m.recordedInput = bytes done ++ (input.controllerState ++ bytes rest) := by
    simp [h.recordedInput, bytes]
  have hsize : m.recordedInput.length = m.currentByte + stateSize + (bytes rest).length := by
    rw [hbytes, List.length_append, List.length_append, length_controllerState, hlength, h.currentByte, Nat.add_assoc]
  have hstate : (m.recordedInput.drop m.currentByte).take stateSize = input.controllerState := by
    rw [hbytes, h.currentByte, ← hlength, List.drop_left, ← length_controllerState input, List.take_left]
  obtain ⟨htype, hvalues⟩ := play_controllerState harg
  refine ⟨checkInputEnd { countInput m arg with currentByte := m.currentByte + stateSize }, _, ?_, htype, hvalues, ?_⟩
  · simp only [Movie.handle, h.playMode, hstate]
    exact if_pos (by omega)
  · have hcount : ∀ m₀ : State, (countInput m₀ arg).recordedInput = m₀.recordedInput ∧
        (countInput m₀ arg).playMode = m₀.playMode := by
      intro m₀
      unfold countInput
      split <;> exact ⟨rfl, rfl⟩
    unfold checkInputEnd
    simp only [(hcount m).1]
    rw [length_bytes] at hsize
    cases rest with
    | nil =>
      rw [if_pos rfl, if_pos (by simp [stateSize] at hsize ⊢; omega)]
    | cons next rest =>
      rw [if_neg (List.cons_ne_nil _ _), if_neg (by simp [stateSize, Nat.mul_succ] at hsize ⊢; omega)]
      refine ⟨(hcount m).2.trans h.playMode, ?_, ?_⟩
      · simp [h.recordedInput]
      · simp [h.currentByte, Nat.mul_succ]

/-- Calls of the same kinds give the recorded values, and playback goes on while an input is left. -/
theorem PlayingAt.handleAll {done first rest : List Input} (h : PlayingAt done (first ++ rest) m) (hrest : rest ≠ [])
    (hargs : args.map Input.type = first.map Input.type) :
    ∃ m' results, handleAll m args = some (m', results) ∧ results.map Input.type = first.map Input.type ∧
      results.map Input.values = first.map Input.values ∧ PlayingAt (done ++ first) rest m' := by
  induction first generalizing done m args with
  | nil =>
    rw [List.map_eq_nil_iff.mp hargs]
    exact ⟨m, [], rfl, rfl, rfl, by simpa using h⟩
  | cons input first ih =>
    cases args with
    | nil => cases hargs
    | cons arg args =>
      obtain ⟨harg, hargs⟩ := List.cons.inj hargs
      obtain ⟨m₁, result, hinput, htype, hvalues, hplaying⟩ := h.handle harg
      rw [if_neg (by simp [hrest])] at hplaying
      obtain ⟨m', results, hfirst, htypes, hvalues', hplaying'⟩ := ih hplaying hargs
      refine ⟨m', result :: results, ?_, ?_, ?_, ?_⟩
      · simp only [Movie.handleAll, hinput, hfirst, Option.bind_eq_bind, Option.bind_some]
        rfl
      · rw [List.map_cons, List.map_cons, htype, htypes]
      · rw [List.map_cons, List.map_cons, hvalues, hvalues']
      · rwa [List.append_assoc] at hplaying'

/-- A movie that was recorded from the start, saved and played gives what was recorded, and ends with the last input. -/
def Replays (revision : List UInt8) (recording player : State) (inputs args : List Input) : Prop :=
  ∃ m, handleAll recording inputs = some (m, inputs) ∧ validateMovie revision (saveMovie revision m) = .ok ∧
    (∃ m' results, handleAll (startPlayback player (some (saveMovie revision m))) args = some (m', results) ∧
      results.map Input.type = inputs.map Input.type ∧ results.map Input.values = inputs.map Input.values ∧
      m'.playMode = .movieFinished) ∧
    ∀ first last, args = first ++ last → last ≠ [] →
      ∃ m' results, handleAll (startPlayback player (some (saveMovie revision m))) first = some (m', results) ∧
        m'.playMode = .playing

theorem recordedInput_ne_nil (h : Recorded inputs m) (hne : inputs ≠ []) : m.recordedInput ≠ [] := by
  intro hnil
  have hlength := length_bytes inputs
  have hpos := List.length_pos_iff.mpr hne
  rw [← h.recordedInput, hnil] at hlength
  simp only [List.length_nil, stateSize] at hlength
  omega

theorem playingAt_startPlayback (revision : List UInt8) (h : Recorded inputs m) (hne : inputs ≠ []) (player : State) :
    PlayingAt [] inputs (startPlayback player (some (saveMovie revision m))) := by
  unfold startPlayback
  simp only [saveMovie]
  rw [if_pos ⟨recordedInput_ne_nil h hne, trivial⟩]
  exact ⟨rfl, h.recordedInput, rfl⟩

/-- Movies replay what was recorded. -/
theorem replays (m player : State) (id programId : UInt64) (revision : List UInt8) (hinputs : inputs ≠ [])
    (hargs : args.map Input.type = inputs.map Input.type) :
    Replays revision (startRecording (shutdown m) id programId) player inputs args := by
  obtain ⟨m', hrecord, hrecorded⟩ := (recorded_startRecording m id programId).handleAll inputs
  rw [List.nil_append] at hrecorded
  have hplaying := playingAt_startPlayback revision hrecorded hinputs player
  refine ⟨m', hrecord, ?_, ?_, ?_⟩
  · simp only [validateMovie, saveMovie, recordedInput_ne_nil hrecorded hinputs]
    simp
  · -- all calls but the last one, and the last one
    obtain ⟨first, input, rfl⟩ := (List.eq_nil_or_concat inputs).resolve_left hinputs
    rw [List.concat_eq_append, List.map_append] at hargs
    obtain ⟨args', lasts, rfl, hargs', hlasts⟩ := List.map_eq_append_iff.mp hargs
    obtain ⟨last, rfl⟩ := List.length_eq_one_iff.mp (by simpa using congrArg List.length hlasts)
    rw [List.concat_eq_append] at hplaying
    obtain ⟨m₁, results, hfirst, htypes, hvalues, hplaying⟩ :=
      hplaying.handleAll (List.cons_ne_nil input []) hargs'
    obtain ⟨m₂, result, hlast, htype, hvalue, hmode⟩ := hplaying.handle (List.cons.inj hlasts).1
    refine ⟨m₂, results ++ [result], handleAll_append hfirst ?_, ?_, ?_, ?_⟩
    · simp [handleAll, hlast]
    · simp [htypes, htype]
    · simp [hvalues, hvalue]
    · rwa [if_pos rfl] at hmode
  · rintro first last rfl hlast
    rw [List.map_append] at hargs
    obtain ⟨inputs₁, inputs₂, rfl, hfirst, hrest⟩ := List.map_eq_append_iff.mp hargs.symm
    have hne : inputs₂ ≠ [] := by
      rintro rfl
      exact hlast (List.map_eq_nil_iff.mp hrest.symm)
    obtain ⟨m₁, results, hcalls, -, -, hplaying⟩ := hplaying.handleAll hne hfirst.symm
    exact ⟨m₁, results, hcalls, hplaying.playMode⟩

theorem replays_pad_touch :
    [Input.padAndCircle 3 10 (-10), .touch 5 6 1] ≠ [] ∧
      Replays [] (startRecording (shutdown initial) 7 0) initial [.padAndCircle 3 10 (-10), .touch 5 6 1]
        [.padAndCircle 0 0 0, .touch 0 0 0] :=
  ⟨by decide, replays initial initial 7 0 [] (by decide) (by decide)⟩

end SweepDSEmu.Movie
