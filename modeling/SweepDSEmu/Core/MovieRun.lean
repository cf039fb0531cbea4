import SweepDSEmu.Core.Movie

/-!
# Runs of a movie

While a movie is played, a whole controller state is left in front of it: then the assertion of `Handle` does not fail.
What breaks this is a file that is shorter than a controller state, and a savestate whose position is taken over before
it is known to fit, or to be accepted at all.
-/

namespace SweepDSEmu.Movie

variable {m m' : State} {ar : Archive}

inductive Op where
  | startPlayback (file : Option MovieFile)
  | startRecording (id programId : UInt64)
  | setReadOnly (readOnly : Bool)
  | handle (input : Input)
  | save
  | load (ar : Archive)
  | shutdown

/-- `none` is the assertion of `Handle`. -/
def step (m : State) : Op → Option State
  | .startPlayback file => some (startPlayback m file)
  | .startRecording id programId => some (startRecording m id programId)
  | .setReadOnly readOnly => some { m with readOnly := readOnly }
  | .handle input => (handle m input).map Prod.fst
  | .save => some m
  | .load ar => some (load m ar).1
  | .shutdown => some (shutdown m)

def Inside (m : State) : Prop := m.playMode = .playing → m.currentByte + stateSize ≤ m.recordedInput.length

structure SamePlayback (m m' : State) : Prop where
  playMode : m'.playMode = m.playMode
  currentByte : m'.currentByte = m.currentByte
  currentInput : m'.currentInput = m.currentInput
  recordedInput : m'.recordedInput = m.recordedInput

structure SafeStep (m : State) (op : Op) (m' : State) : Prop where
  inside : Inside m'
  keeps : ∀ ar, op = .load ar → (load m ar).2 = true → SamePlayback m m'

/-- No assertion fails, and every step of the run is safe. -/
def SafeRun : State → List Op → Prop
  | _, [] => True
  | m, op :: ops => ∃ m', step m op = some m' ∧ SafeStep m op m' ∧ SafeRun m' ops

def Resumes (m : State) (ar : Archive) : Prop :=
  (m.id = 0 ∧ m.playMode = .playing) ∨ (m.id ≠ 0 ∧ ar.postMovie = false ∧ m.readOnly = true)

/-- A file has a controller state; a savestate that is refused has the position of the movie as far as it can be read,
and one that resumes playback has a position with a controller state behind it. -/
def StepOk (m : State) : Op → Prop
  | .startPlayback (some file) =>
    file.input ≠ [] → file.header.filetype = headerMagicBytes → stateSize ≤ file.input.length
  | .load ar =>
    if Refused m ar then
      (1 ≤ ar.readable → ar.currentByte = m.currentByte) ∧ (2 ≤ ar.readable → ar.currentInput = m.currentInput)
    else Resumes m ar → ar.currentByte + stateSize ≤ m.recordedInput.length
  | _ => True

def RunOk : State → List Op → Prop
  | _, [] => True
  | m, op :: ops => StepOk m op ∧ ∀ m', step m op = some m' → RunOk m' ops

theorem load_of_refused (h : Refused m ar) : (load m ar).1 = readArchive m ar := by
  have hthrows := (load_throws_iff m ar).mpr h
  unfold load at hthrows ⊢
  dsimp only at hthrows ⊢
  split_ifs at hthrows ⊢ <;> rfl

theorem samePlayback_readArchive_iff : SamePlayback m (readArchive m ar) ↔
    (1 ≤ ar.readable → ar.currentByte = m.currentByte) ∧ (2 ≤ ar.readable → ar.currentInput = m.currentInput) := by
  constructor
  · rintro ⟨-, hbyte, hinput, -⟩
    constructor
    · intro hreadable
      simpa [readArchive, hreadable] using hbyte
    · intro hreadable
      simpa [readArchive, hreadable] using hinput
  · rintro ⟨hbyte, hinput⟩
    refine ⟨rfl, ?_, ?_, rfl⟩
    · simp only [readArchive]
      split_ifs with hreadable
      · exact hbyte hreadable
      · rfl
    · simp only [readArchive]
      split_ifs with hreadable
      · exact hinput hreadable
      · rfl

theorem Inside.of_same (h : Inside m) (hsame : SamePlayback m m') : Inside m' := by
  intro hmode
  rw [hsame.currentByte, hsame.recordedInput]
  exact h (hsame.playMode ▸ hmode)

/-- A load that does not throw takes the position over; the movie is then played when it is resumed. -/
theorem load_of_accepted (h : ¬ Refused m ar) :
    (load m ar).1.currentByte = ar.currentByte ∧ ((load m ar).1.playMode = .playing ↔ Resumes m ar) ∧
      (Resumes m ar → (load m ar).1.recordedInput = m.recordedInput) := by
  have hreadable : ¬ (ar.readable < 6 ∨ ar.id ≠ m.id ∨ ar.readable < 7) := by
    rintro (hlt | hid | hlt)
    · exact h (.inl (by omega))
    · exact h (.inr (.inl hid))
    · exact h (.inl hlt)
  have hbyte : 1 ≤ ar.readable := by omega
  unfold load Resumes
  rw [if_neg hreadable]
  by_cases hid : m.id = 0
  · simp [hid, readArchive, hbyte]
  · cases hpost : ar.postMovie with
    | true => cases hreadOnly : m.readOnly <;> simp [hid, readArchive, hbyte]
    | false =>
      cases hreadOnly : m.readOnly with
      | false => simp [hid, readArchive, hbyte]
      | true =>
        have hlonger : ¬ (m.recordedInput.length ≤ ar.recordedInput.length ∨ ¬ ar.recordedInput <+: m.recordedInput) :=
          fun hor => h (.inr (.inr ⟨hid, hpost, hreadOnly, hor⟩))
        obtain ⟨hlonger, hprefix⟩ := not_or.mp hlonger
        simp [readArchive, hlonger, hid, hbyte, not_not.mp hprefix]

theorem safeStep_load_iff (h : Inside m) : SafeStep m (.load ar) (load m ar).1 ↔ StepOk m (.load ar) := by
  unfold StepOk
  dsimp only
  by_cases hrefused : Refused m ar
  · have hthrows := (load_throws_iff m ar).mpr hrefused
    rw [if_pos hrefused, ← samePlayback_readArchive_iff, ← load_of_refused hrefused]
    constructor
    · intro hsafe
      exact hsafe.keeps ar rfl hthrows
    · intro hsame
      refine ⟨h.of_same hsame, ?_⟩
      rintro ar' ⟨⟩ -
      exact hsame
  · obtain ⟨hbyte, hmode, hinput⟩ := load_of_accepted hrefused
    rw [if_neg hrefused]
    constructor
    · intro hsafe hresumes
      have hinside := hsafe.inside (hmode.mpr hresumes)
      rwa [hbyte, hinput hresumes] at hinside
    · intro hok
      refine ⟨?_, ?_⟩
      · intro hplaying
        have hresumes := hmode.mp hplaying
        rw [hbyte, hinput hresumes]
        exact hok hresumes
      · rintro ar' ⟨⟩ hthrows
        exact absurd ((load_throws_iff m ar).mp hthrows) hrefused

theorem inside_startPlayback_iff (h : Inside m) (file : Option MovieFile) :
    Inside (startPlayback m file) ↔ StepOk m (.startPlayback file) := by
  cases file with
  | none => exact iff_of_true h trivial
  | some file =>
    unfold startPlayback StepOk
    dsimp only
    by_cases haccepted : file.input ≠ [] ∧ file.header.filetype = headerMagicBytes
    · simp [Inside, haccepted]
    · rw [if_neg haccepted]
      refine iff_of_true h fun hinput hfiletype => absurd ⟨hinput, hfiletype⟩ haccepted

theorem inside_checkInputEnd (m : State) : Inside (checkInputEnd m) := by
  unfold checkInputEnd
  split_ifs with hend
  · intro hmode
    cases hmode
  · exact fun _ => Nat.le_of_not_lt hend

theorem Inside.handle (h : Inside m) (input : Input) : ∃ m' result, handle m input = some (m', result) ∧ Inside m' := by
  unfold Movie.handle
  cases hmode : m.playMode with
  | playing => exact ⟨_, _, if_pos (h hmode), inside_checkInputEnd _⟩
  | recording =>
    refine ⟨_, _, rfl, ?_⟩
    intro hplaying
    have hsame : (record m input).playMode = m.playMode := by
      simp only [record, countInput]
      split <;> rfl
    rw [hsame, hmode] at hplaying
    cases hplaying
  | none => exact ⟨_, _, rfl, h⟩
  | movieFinished => exact ⟨_, _, rfl, h⟩

private theorem safeStep_of_inside {op : Op} (hop : ∀ ar, op ≠ .load ar) : SafeStep m op m' ↔ Inside m' := by
  constructor
  · exact SafeStep.inside
  · exact fun hinside => ⟨hinside, fun ar har => absurd har (hop ar)⟩

/-- From a state with a controller state left, a step is safe exactly when it is allowed. -/
theorem step_safe_iff (h : Inside m) (op : Op) :
    ∃ m', step m op = some m' ∧ (SafeStep m op m' ↔ StepOk m op) := by
  cases op with
  | startPlayback file =>
    refine ⟨_, rfl, ?_⟩
    rw [safeStep_of_inside (by simp)]
    exact inside_startPlayback_iff h file
  | startRecording id programId =>
    refine ⟨_, rfl, iff_of_true ((safeStep_of_inside (by simp)).mpr ?_) trivial⟩
    intro hmode
    cases hmode
  | setReadOnly readOnly => exact ⟨_, rfl, iff_of_true ((safeStep_of_inside (by simp)).mpr h) trivial⟩
  | handle input =>
    obtain ⟨m', result, hhandle, hinside⟩ := h.handle input
    refine ⟨m', ?_, iff_of_true ((safeStep_of_inside (by simp)).mpr hinside) trivial⟩
    simp [step, hhandle]
  | save => exact ⟨_, rfl, iff_of_true ((safeStep_of_inside (by simp)).mpr h) trivial⟩
  | load ar => exact ⟨_, rfl, safeStep_load_iff h⟩
  | shutdown =>
    refine ⟨_, rfl, iff_of_true ((safeStep_of_inside (by simp)).mpr ?_) trivial⟩
    intro hmode
    cases hmode

theorem Inside.safeRun_iff (h : Inside m) (ops : List Op) : SafeRun m ops ↔ RunOk m ops := by
  induction ops generalizing m with
  | nil => exact Iff.rfl
  | cons op ops ih =>
    obtain ⟨m', hstep, hsafe⟩ := step_safe_iff h op
    constructor
    · rintro ⟨m₁, hstep₁, hsafe₁, hrun⟩
      rw [hstep] at hstep₁
      cases hstep₁
      refine ⟨hsafe.mp hsafe₁, ?_⟩
      intro m₁ hstep₁
      rw [hstep] at hstep₁
      cases hstep₁
      exact (ih hsafe₁.inside).mp hrun
    · rintro ⟨hok, hrest⟩
      have hsafe' := hsafe.mpr hok
      exact ⟨m', hstep, hsafe', (ih hsafe'.inside).mpr (hrest m' hstep)⟩

/-- A movie is never read behind its end, and a load that throws changes nothing of its playback, exactly in the runs
whose files and savestates are all allowed where they are loaded. -/
theorem safeRun_iff_runOk (ops : List Op) : SafeRun initial ops ↔ RunOk initial ops := by
  apply Inside.safeRun_iff
  intro hmode
  cases hmode

def oneInput : State := record (startRecording initial 5 0) (.padAndCircle 1 0 0)

def futureState : List Op := [.startPlayback (some (saveMovie [] oneInput)), .load (save oneInput)]

theorem not_safeRun_futureState : ¬ SafeRun initial futureState := by
  rintro ⟨m₁, h₁, -, m₂, h₂, hsafe, -⟩
  cases h₁
  cases h₂
  exact absurd (hsafe.inside rfl) (by decide)

end SweepDSEmu.Movie
