import Mathlib.Data.List.DropRight
import SweepDSEmu.Lib.SplitString

/-!
# Cheat files

`SaveCheatFile` writes the cheats with `ToString`, and `GatewayCheat::LoadFile` reads a file line by line.  Whatever the
file holds, cheats that were read from it come back when they are saved and read again; only built-in cheats that are off
are not saved.

The numbers of a cheat line are made of its text, so the text stands for the line.
-/

namespace SweepDSEmu.Cheats

abbrev Str := List Char

structure GatewayCheat where
  name : Str := []
  builtIn : Bool := false
  enabled : Bool := false
  comments : Str := []
  cheatLines : List Str := []

def enabledText : Str := "*citra_enabled".toList

def builtInText : Str := "*azaharplus_built_in".toList

def endLine (line : Str) : Str := line ++ ['\n']

def GatewayCheat.getCode (c : GatewayCheat) : Str := c.cheatLines.flatMap endLine

def GatewayCheat.toString (c : GatewayCheat) : Str :=
  endLine ('[' :: c.name ++ [']']) ++ (if c.builtIn then endLine builtInText else []) ++
    (if c.enabled then endLine enabledText else []) ++
    (splitString '\n' c.comments).flatMap (fun line => endLine ('*' :: line)) ++ endLine c.getCode

def GatewayCheat.isSaved (c : GatewayCheat) : Bool := !c.builtIn || c.enabled

def saveCheatFile (cheats : List GatewayCheat) : Str :=
  (cheats.filter GatewayCheat.isSaved).flatMap GatewayCheat.toString

def stripSpaces (s : Str) : Str :=
  (s.dropWhile (· ∈ [' ', '\t', '\r', '\n'])).rdropWhile (· ∈ [' ', '\t', '\r', '\n'])

/-- The variables of the loop of `LoadFile`. -/
structure Loader where
  cheats : List GatewayCheat := []
  current : GatewayCheat := {}

def Loader.push (s : Loader) : List GatewayCheat :=
  if s.current.cheatLines = [] then s.cheats else s.cheats ++ [s.current]

def Loader.interpret (s : Loader) (line : Str) : Loader :=
  if 2 ≤ line.length ∧ line.head? = some '[' then ⟨s.push, { name := (line.drop 1).take (line.length - 2) }⟩
  else if line.head? = some '*' then
    if line = enabledText then { s with current.enabled := true }
    else if line = builtInText then { s with current.builtIn := true }
    else { s with current.comments := s.current.comments ++ endLine (line.drop 1) }
  else if line ≠ [] then { s with current.cheatLines := s.current.cheatLines ++ [line] }
  else s

def Loader.readLine (s : Loader) (line : Str) : Loader :=
  s.interpret (stripSpaces (line.filter (· ≠ '\x00')))

/-- The part of `LoadFile` that reads the file. -/
def loadFile (file : Str) : List GatewayCheat := ((splitString '\n' file).foldl Loader.readLine {}).push

private def Plain (w : Str) : Prop := '\x00' ∉ w ∧ '\n' ∉ w

private def Clean (w : Str) : Prop := stripSpaces w = w ∧ Plain w

private def IsComment (w : Str) : Prop := Clean ('*' :: w) ∧ '*' :: w ≠ enabledText ∧ '*' :: w ≠ builtInText

private def IsCode (w : Str) : Prop :=
  Clean w ∧ ¬ (2 ≤ w.length ∧ w.head? = some '[') ∧ w.head? ≠ some '*' ∧ w ≠ []

/-- What is true of a cheat from the first of its lines on. -/
private structure Storable (c : GatewayCheat) : Prop where
  name : Plain c.name
  comments : ∃ lines : List Str, c.comments = lines.flatMap endLine ∧ ∀ w ∈ lines, IsComment w
  cheatLines : ∀ w ∈ c.cheatLines, IsCode w

private structure Sound (s : Loader) : Prop where
  cheats : ∀ c ∈ s.cheats, Storable c ∧ c.cheatLines ≠ []
  current : Storable s.current

private theorem clean_stripSpaces {raw : Str} (h : '\n' ∉ raw) : Clean (stripSpaces (raw.filter (· ≠ '\x00'))) := by
  have hsub : ∀ s, ∀ c ∈ stripSpaces s, c ∈ s :=
    fun s c hc => (List.dropWhile_suffix _).subset ((List.rdropWhile_prefix _ _).subset hc)
  refine ⟨?_, fun hm => by simpa using hsub _ _ hm, fun hm => h (List.mem_of_mem_filter (hsub _ _ hm))⟩
  unfold stripSpaces
  generalize (fun c => decide (c ∈ [' ', '\t', '\r', '\n'])) = p, raw.filter _ = s
  have hhead := List.dropWhile_eq_self_iff.mp (List.dropWhile_idempotent p s)
  rw [List.dropWhile_eq_self_iff.mpr, List.rdropWhile_idempotent]
  intro hl
  rw [(List.rdropWhile_prefix p (s.dropWhile p)).getElem hl]
  exact hhead _

private theorem Clean.readLine {w : Str} (h : Clean w) (s : Loader) : s.readLine w = s.interpret w := by
  have hfilter : w.filter (· ≠ '\x00') = w := List.filter_eq_self.mpr fun c hc => by
    simpa using ne_of_mem_of_not_mem hc h.2.1
  rw [Loader.readLine, hfilter, h.1]

private theorem clean_header {name : Str} (h : Plain name) : Clean ('[' :: name ++ [']']) :=
  ⟨by simp [stripSpaces], by simp [h.1], by simp [h.2]⟩

private theorem Sound.push {s : Loader} (h : Sound s) : ∀ c ∈ s.push, Storable c ∧ c.cheatLines ≠ [] := by
  unfold Loader.push
  split
  · exact h.cheats
  · rename_i hne
    exact List.forall_mem_append.mpr ⟨h.cheats, List.forall_mem_singleton.mpr ⟨h.current, hne⟩⟩

private theorem Sound.interpret {s : Loader} (h : Sound s) {line : Str} (hclean : Clean line) :
    Sound (s.interpret line) := by
  obtain ⟨hname, ⟨lines, hcomments, hlines⟩, hcode⟩ := h.current
  unfold Loader.interpret
  split
  · have hsub : ∀ c ∈ (line.drop 1).take (line.length - 2), c ∈ line :=
      fun c hc => List.mem_of_mem_drop (List.mem_of_mem_take hc)
    exact ⟨h.push, ⟨fun hn => hclean.2.1 (hsub _ hn), fun hn => hclean.2.2 (hsub _ hn)⟩, ⟨[], rfl, by simp⟩, by simp⟩
  · split
    · rename_i hstar
      obtain ⟨w, rfl⟩ := List.head?_eq_some_iff.mp hstar
      split
      · exact ⟨h.cheats, hname, ⟨lines, hcomments, hlines⟩, hcode⟩
      · split
        · exact ⟨h.cheats, hname, ⟨lines, hcomments, hlines⟩, hcode⟩
        · exact ⟨h.cheats, hname, ⟨lines ++ [w], by simp [hcomments],
            List.forall_mem_append.mpr ⟨hlines, List.forall_mem_singleton.mpr ⟨hclean, ‹_›, ‹_›⟩⟩⟩, hcode⟩
    · split
      · exact ⟨h.cheats, hname, ⟨lines, hcomments, hlines⟩,
          List.forall_mem_append.mpr ⟨hcode, List.forall_mem_singleton.mpr ⟨hclean, ‹_›, ‹_›, ‹_›⟩⟩⟩
      · exact h

private theorem Sound.readLines {lines : List Str} (hlines : ∀ w ∈ lines, '\n' ∉ w) {s : Loader} (h : Sound s) :
    Sound (lines.foldl Loader.readLine s) := by
  induction lines generalizing s with
  | nil => exact h
  | cons w lines ih =>
    rw [List.forall_mem_cons] at hlines
    exact ih hlines.2 (h.interpret (clean_stripSpaces hlines.1))

/-- The lines that `ToString` writes. -/
private def fileLines (c : GatewayCheat) : List Str :=
  ('[' :: c.name ++ [']']) :: ((if c.builtIn then [builtInText] else []) ++ (if c.enabled then [enabledText] else []) ++
    (splitString '\n' c.comments).map ('*' :: ·) ++ c.cheatLines ++ [[]])

private theorem toString_eq (c : GatewayCheat) : c.toString = (fileLines c).flatMap endLine := by
  unfold GatewayCheat.toString fileLines
  cases c.builtIn <;> cases c.enabled <;> simp [GatewayCheat.getCode, endLine, List.flatMap_map]

private theorem Storable.newline {c : GatewayCheat} (h : Storable c) : ∀ w ∈ fileLines c, '\n' ∉ w := by
  intro w hw
  simp only [fileLines, List.mem_cons, List.mem_append, List.mem_map, List.mem_ite_nil_right, List.not_mem_nil,
    or_false] at hw
  rcases hw with rfl | (((⟨-, rfl⟩ | ⟨-, rfl⟩) | ⟨w, hw, rfl⟩) | hw) | rfl
  · exact (clean_header h.name).2.2
  · decide
  · decide
  · simpa using notMem_of_mem_splitString hw
  · exact (h.cheatLines w hw).1.2.2
  · exact List.not_mem_nil

private theorem foldl_comments {lines : List Str} (h : ∀ w ∈ lines, IsComment w) (s : Loader) :
    (lines.map ('*' :: ·)).foldl Loader.readLine s =
      { s with current.comments := s.current.comments ++ lines.flatMap endLine } := by
  induction lines generalizing s with
  | nil => simp
  | cons w lines ih =>
    obtain ⟨⟨hclean, hon, hbuiltIn⟩, h⟩ := List.forall_mem_cons.mp h
    rw [List.map_cons, List.foldl_cons, hclean.readLine, ih h]
    simp [Loader.interpret, hon, hbuiltIn]

private theorem foldl_cheatLines {lines : List Str} (h : ∀ w ∈ lines, IsCode w) (s : Loader) :
    lines.foldl Loader.readLine s = { s with current.cheatLines := s.current.cheatLines ++ lines } := by
  induction lines generalizing s with
  | nil => simp
  | cons w lines ih =>
    obtain ⟨⟨hclean, hbracket, hstar, hne⟩, h⟩ := List.forall_mem_cons.mp h
    rw [List.foldl_cons, hclean.readLine, ih h]
    simp [Loader.interpret, hne, hstar, hbracket]

private theorem foldl_fileLines {c : GatewayCheat} (h : Storable c) (s : Loader) :
    (fileLines c).foldl Loader.readLine s = ⟨s.push, c⟩ := by
  obtain ⟨lines, hcomments, hlines⟩ := h.comments
  have hsplit : splitString '\n' c.comments = lines := by
    rw [hcomments]
    exact splitString_flatMap_append fun w hw hn => (hlines w hw).1.2.2 (List.mem_cons_of_mem _ hn)
  have hheader : s.readLine ('[' :: c.name ++ [']']) = ⟨s.push, { name := c.name }⟩ := by
    rw [(clean_header h.name).readLine]
    simp [Loader.interpret]
  have hon : ∀ s : Loader, s.readLine enabledText = { s with current.enabled := true } := fun _ => rfl
  have hbuiltIn : ∀ s : Loader, s.readLine builtInText = { s with current.builtIn := true } := fun _ => rfl
  have hempty : ∀ s : Loader, s.readLine [] = s := fun _ => rfl
  obtain ⟨name, builtIn, enabled, comments, cheatLines⟩ := c
  unfold fileLines
  simp only [hsplit, List.foldl_cons, hheader, List.foldl_append, foldl_comments hlines, foldl_cheatLines h.cheatLines,
    ← hcomments]
  cases builtIn <;> cases enabled <;> simp [hon, hbuiltIn, hempty]

private theorem foldl_saved {cheats : List GatewayCheat} (h : ∀ c ∈ cheats, Storable c ∧ c.cheatLines ≠ []) (s : Loader) :
    ((cheats.flatMap fileLines).foldl Loader.readLine s).push = s.push ++ cheats := by
  induction cheats generalizing s with
  | nil => simp
  | cons c cheats ih =>
    obtain ⟨⟨hc, hne⟩, h⟩ := List.forall_mem_cons.mp h
    rw [List.flatMap_cons, List.foldl_append, foldl_fileLines hc, ih h]
    simp [Loader.push, hne]

def sampleFile : Str := " [Lives]\r\n*nine\n2875470C 00000009\n\n[Empty]\n[Time]\n*citra_enabled\n?".toList

end SweepDSEmu.Cheats
