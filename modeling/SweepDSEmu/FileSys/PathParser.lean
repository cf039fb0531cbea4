import SweepDSEmu.Lib.SplitString
import Mathlib.Data.List.Infix
import Mathlib.Algebra.BigOperators.Group.List.Basic
import Mathlib.Algebra.Order.Group.Int
import Mathlib.Algebra.Ring.Int.Defs

/-!
# Guest paths on the host

`PathParser` takes the path that a guest gives to a file system service apart, and `BuildHostPath` puts it behind the
mount point of an archive.  The host reads the result as a C string, up to the first NUL.

* A path is a string of bytes.  The conversion from UTF-16 is a parameter.
* `components` is what the host makes of a path: the names between the slashes, without the empty ones and `.`.
* A walk leaves the directory it starts in when some prefix of it has more `..` than other names.
-/

namespace SweepDSEmu.FileSys

abbrev Bytes := List UInt8

def slash : UInt8 := 0x2F

def dot : UInt8 := 0x2E

def dotDot : Bytes := [dot, dot]

def invalidChars : Bytes := [0x3C, 0x3E, 0x5C, 0x7C, 0x3A, 0x22, 0x2A, 0x3F]

inductive LowPathType where
  | invalid
  | empty
  | binary
  | char
  | wchar
  deriving DecidableEq

structure Path where
  type : LowPathType
  binary : Bytes := []
  string : Bytes := []
  u16str : List UInt16 := []

/-- The characters of a string in memory, two bytes each. -/
def toU16 : Bytes → List UInt16
  | low :: high :: data => (low.toUInt16 ||| high.toUInt16 <<< 8) :: toU16 data
  | _ => []

/-- `Path::Path` for the data of a guest; there is no path when the string cannot be resized. -/
def Path.ofData (type : LowPathType) (data : Bytes) : Option Path :=
  match type with
  | .binary => some { type := type, binary := data }
  | .char => if data = [] then none else some { type := type, string := data.take (data.length - 1) }
  | .wchar =>
    if data.length / 2 = 0 then none
    else some { type := type, u16str := toU16 (data.take ((data.length / 2 - 1) * 2)) }
  | _ => some { type := type }

def Path.asString (utf16ToUtf8 : List UInt16 → Bytes) (path : Path) : Bytes :=
  match path.type with
  | .char => path.string
  | .wchar => utf16ToUtf8 path.u16str
  | _ => []

structure PathParser where
  pathSequence : List Bytes := []
  isValid : Bool := false
  isRoot : Bool := false

def isNode (node : Bytes) : Bool := !(node == [] || node == [dot])

/-- The loop that checks if the path is out of bounds; `none` when it is. -/
def checkLevel : Int → List Bytes → Option Int
  | level, [] => some level
  | level, node :: nodes =>
    if node = dotDot then
      if level - 1 < 0 then none else checkLevel (level - 1) nodes
    else checkLevel (level + 1) nodes

def PathParser.parse (utf16ToUtf8 : List UInt16 → Bytes) (path : Path) : PathParser :=
  if path.type ≠ .char ∧ path.type ≠ .wchar then {}
  else
    let pathString := path.asString utf16ToUtf8
    if pathString.head? ≠ some slash then {}
    else if pathString.any (invalidChars.contains ·) then {}
    else
      let pathSequence := (splitString slash pathString).filter isNode
      match checkLevel 0 pathSequence with
      | none => { pathSequence := pathSequence }
      | some level => { pathSequence := pathSequence, isValid := true, isRoot := level == 0 }

def appendNode (path node : Bytes) : Bytes :=
  (if path.getLast? ≠ some slash then path ++ [slash] else path) ++ node

def PathParser.buildHostPath (parser : PathParser) (mountPoint : Bytes) : Bytes :=
  parser.pathSequence.foldl appendNode mountPoint

def cString (s : Bytes) : Bytes := s.takeWhile (· != 0)

/-- The names of a path, one for each step of a walk. -/
def components (s : Bytes) : List Bytes := (splitString slash s).filter isNode

def levels (walk : List Bytes) : Int := (walk.map fun node => if node = dotDot then -1 else 1).sum

/-- No prefix of the walk is above the directory it starts in. -/
def NeverLeaves (walk : List Bytes) : Prop := ∀ w, w <+: walk → 0 ≤ levels w

def InsideMount (mountPoint hostPath : Bytes) : Prop :=
  ∃ walk, components (cString hostPath) = components (cString mountPoint) ++ walk ∧ NeverLeaves walk

/-- The first NUL of a path comes right after a `..` that stands at the root. -/
def NulAfterDotDot (s : Bytes) : Prop :=
  ∃ before rest, s = before ++ slash :: dot :: dot :: 0 :: rest ∧ 0 ∉ before ∧ levels (components before) = 0

theorem components_append_slash (s t : Bytes) : components (s ++ slash :: t) = components s ++ components t :=
  filter_splitString_append rfl s t

theorem components_name {w : Bytes} (hw : slash ∉ w) : components w = if isNode w then [w] else [] := by
  cases w with
  | nil => rfl
  | cons c w => simp [components, splitString_of_notMem hw, List.filter_cons]

theorem mem_components {s w : Bytes} (hw : w ∈ components s) : slash ∉ w ∧ isNode w = true := by
  obtain ⟨h1, h2⟩ := List.mem_filter.mp hw
  exact ⟨notMem_of_mem_splitString h1, h2⟩

theorem nul_notMem_components {s w : Bytes} (hs : 0 ∉ s) (hw : w ∈ components s) : 0 ∉ w := fun h =>
  hs (mem_of_mem_splitString (List.mem_filter.mp hw).1 h)

variable {s : Bytes}

private theorem exists_last_name (hs : slash ∈ s) : ∃ before name, s = before ++ slash :: name ∧ slash ∉ name := by
  obtain ⟨name, before, heq, hname⟩ := List.eq_append_cons_of_mem (List.mem_reverse.mpr hs)
  refine ⟨before.reverse, name.reverse, ?_, by simpa using hname⟩
  rw [← List.reverse_reverse s, heq]
  simp

@[simp] theorem levels_nil : levels [] = 0 := rfl

@[simp] theorem levels_cons (node : Bytes) (walk : List Bytes) :
    levels (node :: walk) = (if node = dotDot then -1 else 1) + levels walk := by
  simp [levels]

theorem levels_append (v w : List Bytes) : levels (v ++ w) = levels v + levels w := by
  simp [levels]

theorem neverLeaves_nil : NeverLeaves [] := by
  intro w hw
  simp [List.prefix_nil.mp hw]

theorem NeverLeaves.of_append {v w : List Bytes} (h : NeverLeaves (v ++ w)) : NeverLeaves v := fun u hu =>
  h u (hu.trans (List.prefix_append v w))

theorem neverLeaves_concat {walk : List Bytes} (h : NeverLeaves walk) (node : Bytes) :
    NeverLeaves (walk ++ [node]) ↔ 0 ≤ levels (walk ++ [node]) := by
  constructor
  · exact fun hn => hn _ List.prefix_rfl
  · intro hn w hw
    rcases List.prefix_concat_iff.mp hw with rfl | hw
    · exact hn
    · exact h w hw

theorem checkLevel_isSome {level : Int} (hl : 0 ≤ level) (walk : List Bytes) :
    (checkLevel level walk).isSome ↔ ∀ w, w <+: walk → 0 ≤ level + levels w := by
  induction walk generalizing level with
  | nil => simpa [checkLevel] using hl
  | cons node walk ih =>
    -- the prefixes of the walk are the empty one and those that start with the node
    have hprefixes : (∀ w, w <+: node :: walk → 0 ≤ level + levels w) ↔
        ∀ w, w <+: walk → 0 ≤ level + (if node = dotDot then -1 else 1) + levels w := by
      constructor
      · intro h w hw
        have := h (node :: w) (List.cons_prefix_cons.mpr ⟨rfl, hw⟩)
        rw [levels_cons] at this
        omega
      · intro h w hw
        cases w with
        | nil => simpa using hl
        | cons c w =>
          obtain ⟨rfl, hw'⟩ := List.cons_prefix_cons.mp hw
          have := h w hw'
          rw [levels_cons]
          omega
    rw [hprefixes]
    unfold checkLevel
    by_cases hn : node = dotDot
    · simp only [hn, if_true]
      by_cases hlt : level - 1 < 0
      · rw [if_pos hlt]
        refine ⟨fun h => by simp at h, fun h => ?_⟩
        have := h [] List.nil_prefix
        rw [levels_nil] at this
        omega
      · rw [if_neg hlt]
        exact ih (by omega)
    · simp only [hn, if_false]
      exact ih (by omega)

theorem checkLevel_zero_isSome (walk : List Bytes) : (checkLevel 0 walk).isSome ↔ NeverLeaves walk := by
  rw [checkLevel_isSome (by omega)]
  simp [NeverLeaves]

theorem components_appendNode (path node : Bytes) :
    components (appendNode path node) = components path ++ components node := by
  unfold appendNode
  split
  · rw [List.append_assoc, List.singleton_append, components_append_slash]
  · rename_i h
    rw [not_not] at h
    obtain ⟨p, rfl⟩ := List.getLast?_eq_some_iff.mp h
    rw [List.append_assoc, List.singleton_append, components_append_slash, components_append_slash]
    simp [components, splitString]

theorem components_foldl (nodes : List Bytes) (path : Bytes) :
    components (nodes.foldl appendNode path) = components path ++ nodes.flatMap components := by
  induction nodes generalizing path with
  | nil => simp
  | cons node nodes ih => simp [ih, components_appendNode]

def cutNodes : List Bytes → List Bytes
  | [] => []
  | node :: nodes => if 0 ∈ node then [cString node] else node :: cutNodes nodes

theorem cString_append_of_notMem (hs : 0 ∉ s) (t : Bytes) : cString (s ++ t) = s ++ cString t := by
  refine List.takeWhile_append_of_pos fun c hc => ?_
  simp only [bne_iff_ne, ne_eq]
  exact fun h => hs (h ▸ hc)

theorem cString_of_notMem (hs : 0 ∉ s) : cString s = s := by
  have h := cString_append_of_notMem hs []
  simpa [cString] using h

theorem cString_append_of_mem (hs : 0 ∈ s) (t : Bytes) : cString (s ++ t) = cString s := by
  obtain ⟨a, b, rfl, ha⟩ := List.eq_append_cons_of_mem hs
  rw [List.append_assoc, cString_append_of_notMem ha, cString_append_of_notMem ha]
  simp [cString]

theorem cString_eq_of_mem (hs : 0 ∈ s) : ∃ rest, s = cString s ++ 0 :: rest := by
  obtain ⟨a, b, rfl, ha⟩ := List.eq_append_cons_of_mem hs
  refine ⟨b, ?_⟩
  rw [cString_append_of_notMem ha]
  simp [cString]

theorem nul_notMem_cString (s : Bytes) : 0 ∉ cString s := by
  intro h
  have hp := List.all_takeWhile (p := (· != (0 : UInt8))) (l := s)
  simpa using List.all_eq_true.mp hp 0 h

private theorem exists_append_foldl (nodes : List Bytes) (path : Bytes) :
    ∃ rest, nodes.foldl appendNode path = path ++ rest := by
  induction nodes generalizing path with
  | nil => exact ⟨[], by simp⟩
  | cons node nodes ih =>
    obtain ⟨rest, hrest⟩ := ih (appendNode path node)
    rw [List.foldl_cons, hrest]
    unfold appendNode
    split
    · exact ⟨slash :: node ++ rest, by simp⟩
    · exact ⟨node ++ rest, by simp⟩

theorem cString_foldl {path : Bytes} (hpath : 0 ∉ path) (nodes : List Bytes) :
    cString (nodes.foldl appendNode path) = (cutNodes nodes).foldl appendNode path := by
  induction nodes generalizing path with
  | nil => exact cString_of_notMem hpath
  | cons node nodes ih =>
    have hsep : 0 ∉ if path.getLast? ≠ some slash then path ++ [slash] else path := by
      split
      · simp [hpath, slash]
      · exact hpath
    unfold cutNodes
    split
    · rename_i hnode
      obtain ⟨rest, hrest⟩ := exists_append_foldl nodes (appendNode path node)
      rw [List.foldl_cons, hrest]
      unfold appendNode
      rw [List.append_assoc, cString_append_of_notMem hsep, cString_append_of_mem hnode]
      rfl
    · rename_i hnode
      refine ih ?_
      unfold appendNode
      rw [List.mem_append, not_or]
      exact ⟨hsep, hnode⟩

private theorem flatMap_components {nodes : List Bytes} (h : ∀ w ∈ nodes, slash ∉ w ∧ isNode w = true) :
    nodes.flatMap components = nodes := by
  induction nodes with
  | nil => rfl
  | cons w nodes ih =>
    obtain ⟨hw, hnode⟩ := h w List.mem_cons_self
    rw [List.flatMap_cons, components_name hw, if_pos hnode, ih fun v hv => h v (List.mem_cons_of_mem _ hv)]
    rfl

private theorem cutNodes_append {v w : List Bytes} (h : ∀ node ∈ v, 0 ∉ node) :
    cutNodes (v ++ w) = v ++ cutNodes w := by
  induction v with
  | nil => rfl
  | cons node v ih =>
    rw [List.cons_append, cutNodes, if_neg (h node List.mem_cons_self),
      ih fun n hn => h n (List.mem_cons_of_mem _ hn)]
    rfl

private theorem components_nul {name : Bytes} (hname : slash ∉ name) (rest : Bytes) :
    ∃ tail nodes, components (name ++ 0 :: rest) = (name ++ 0 :: tail) :: nodes := by
  have hnode : ∀ tail, isNode (name ++ 0 :: tail) = true := by
    intro tail
    cases name with
    | nil => rfl
    | cons c name => cases name <;> simp [isNode]
  by_cases hrest : slash ∈ rest
  · obtain ⟨tail, rest', rfl, htail⟩ := List.eq_append_cons_of_mem hrest
    refine ⟨tail, components rest', ?_⟩
    have hslash : slash ∉ name ++ 0 :: tail := by
      simp only [List.mem_append, List.mem_cons, not_or]
      exact ⟨hname, by decide, htail⟩
    have heq : name ++ 0 :: (tail ++ slash :: rest') = (name ++ 0 :: tail) ++ slash :: rest' := by simp
    rw [heq, components_append_slash, components_name hslash, if_pos (hnode tail)]
    rfl
  · refine ⟨rest, [], ?_⟩
    have hslash : slash ∉ name ++ 0 :: rest := by
      simp only [List.mem_append, List.mem_cons, not_or]
      exact ⟨hname, by decide, hrest⟩
    rw [components_name hslash, if_pos (hnode rest)]

private theorem components_cut (before : Bytes) {name : Bytes} (hname : slash ∉ name) (rest : Bytes) :
    ∃ tail nodes,
      components (before ++ slash :: (name ++ 0 :: rest)) = components before ++ (name ++ 0 :: tail) :: nodes := by
  obtain ⟨tail, nodes, h⟩ := components_nul hname rest
  exact ⟨tail, nodes, by rw [components_append_slash, h]⟩

private theorem exists_cut (hs : s.head? = some slash) (hnul : 0 ∈ s) :
    ∃ before name rest, s = before ++ slash :: (name ++ 0 :: rest) ∧ slash ∉ name ∧ 0 ∉ before ∧ 0 ∉ name := by
  obtain ⟨rest, hrest⟩ := cString_eq_of_mem hnul
  have hslash : slash ∈ cString s := by
    cases s with
    | nil => simp at hs
    | cons c s =>
      obtain rfl : c = slash := by simpa using hs
      simp [cString, slash]
  obtain ⟨before, name, hcut, hname⟩ := exists_last_name hslash
  have hn := nul_notMem_cString s
  rw [hcut] at hn
  simp only [List.mem_append, List.mem_cons, not_or] at hn
  refine ⟨before, name, rest, ?_, hname, hn.1, hn.2.2⟩
  rw [hrest, hcut]
  simp

private theorem cString_cut {before name : Bytes} (hb : 0 ∉ before) (hn : 0 ∉ name) (rest : Bytes) :
    cString (before ++ slash :: (name ++ 0 :: rest)) = before ++ slash :: name := by
  have heq : before ++ slash :: (name ++ 0 :: rest) = (before ++ slash :: name) ++ 0 :: rest := by simp
  rw [heq, cString_append_of_notMem]
  · simp [cString]
  · simp only [List.mem_append, List.mem_cons, not_or]
    exact ⟨hb, by decide, hn⟩

private theorem flatMap_cutNodes (hs : s.head? = some slash) :
    (cutNodes (components s)).flatMap components = components (cString s) := by
  by_cases hnul : 0 ∈ s
  · obtain ⟨before, name, rest, rfl, hname, hb, hn⟩ := exists_cut hs hnul
    obtain ⟨tail, nodes, hcomp⟩ := components_cut before hname rest
    have hname' : cString (name ++ 0 :: tail) = name := by
      rw [cString_append_of_notMem hn]
      simp [cString]
    rw [hcomp, cutNodes_append fun w hw => nul_notMem_components hb hw, cutNodes, if_pos (by simp), hname',
      cString_cut hb hn, components_append_slash, List.flatMap_append, flatMap_components fun w hw => mem_components hw]
    simp
  · rw [cString_of_notMem hnul]
    have hcut : cutNodes (components s) = components s := by
      have := cutNodes_append (v := components s) (w := []) fun w hw => nul_notMem_components hnul hw
      simpa [cutNodes] using this
    rw [hcut, flatMap_components fun w hw => mem_components hw]

theorem components_hostPath {s mountPoint : Bytes} (hs : s.head? = some slash) (hm : 0 ∉ mountPoint) :
    components (cString ((components s).foldl appendNode mountPoint)) =
      components mountPoint ++ components (cString s) := by
  rw [cString_foldl hm, components_foldl, flatMap_cutNodes hs]

/-- Cutting at the first NUL lets a walk leave exactly when it makes a `..` of a name. -/
theorem neverLeaves_cString_iff (hs : s.head? = some slash) (h : NeverLeaves (components s)) :
    NeverLeaves (components (cString s)) ↔ ¬ NulAfterDotDot s := by
  constructor
  · rintro hn ⟨before, rest, rfl, hb, hlevel⟩
    have hcut : cString (before ++ slash :: dot :: dot :: 0 :: rest) = before ++ slash :: dotDot := by
      rw [cString_append_of_notMem hb]
      simp [cString, slash, dot, dotDot]
    have := hn _ List.prefix_rfl
    rw [hcut, components_append_slash, levels_append, hlevel] at this
    exact absurd this (by decide)
  · intro hno
    by_cases hnul : 0 ∈ s
    · obtain ⟨before, name, rest, rfl, hname, hb, hn⟩ := exists_cut hs hnul
      obtain ⟨tail, nodes, hcomp⟩ := components_cut before hname rest
      rw [hcomp] at h
      have hbefore : NeverLeaves (components before) := h.of_append
      rw [cString_cut hb hn, components_append_slash, components_name hname]
      split
      · rw [neverLeaves_concat hbefore, levels_append, levels_cons, levels_nil]
        have hle := hbefore _ List.prefix_rfl
        split
        · -- the name is `..`, so what is before it does not end at the root
          rename_i hdd
          subst hdd
          have : levels (components before) ≠ 0 := fun h0 => hno ⟨before, rest, by simp [dotDot], hb, h0⟩
          omega
        · omega
      · simpa using hbefore
    · rwa [cString_of_notMem hnul]

theorem PathParser.parse_valid {utf16ToUtf8 : List UInt16 → Bytes} {path : Path}
    (h : (parse utf16ToUtf8 path).isValid = true) :
    (path.asString utf16ToUtf8).head? = some slash ∧
      (parse utf16ToUtf8 path).pathSequence = components (path.asString utf16ToUtf8) ∧
      NeverLeaves (components (path.asString utf16ToUtf8)) := by
  unfold parse at h ⊢
  split at h
  · cases h
  · rename_i htype
    rw [if_neg htype]
    simp only at h ⊢
    split at h
    · cases h
    · rename_i hslash
      rw [if_neg hslash]
      split at h
      · cases h
      · rename_i hchars
        rw [if_neg hchars]
        rw [← checkLevel_zero_isSome]
        unfold components
        split at h
        · cases h
        · rename_i level hlevel
          rw [hlevel]
          exact ⟨not_not.mp hslash, rfl, rfl⟩

/-- A valid guest path stays inside the mount point unless its first NUL makes a `..` of a name at the root. -/
theorem PathParser.buildHostPath_inside_iff (utf16ToUtf8 : List UInt16 → Bytes) (path : Path) (mountPoint : Bytes)
    (h : (parse utf16ToUtf8 path).isValid = true) :
    InsideMount mountPoint ((parse utf16ToUtf8 path).buildHostPath mountPoint) ↔
      0 ∈ mountPoint ∨ ¬ NulAfterDotDot (path.asString utf16ToUtf8) := by
  obtain ⟨hslash, hseq, hwalk⟩ := parse_valid h
  unfold InsideMount buildHostPath
  rw [hseq]
  by_cases hm : 0 ∈ mountPoint
  · -- the host sees nothing but the mount point
    obtain ⟨rest, hrest⟩ := exists_append_foldl (components (path.asString utf16ToUtf8)) mountPoint
    rw [hrest, cString_append_of_mem hm]
    exact ⟨fun _ => Or.inl hm, fun _ => ⟨[], by simp, neverLeaves_nil⟩⟩
  · rw [components_hostPath hslash hm, cString_of_notMem hm, ← neverLeaves_cString_iff hslash hwalk]
    constructor
    · rintro ⟨walk, heq, hw⟩
      rw [List.append_cancel_left heq]
      exact Or.inr hw
    · intro hw
      exact ⟨_, rfl, hw.resolve_left hm⟩

def samplePath : Bytes := [slash, 0x61, slash, dot, dot, slash, 0x62, 0]

/-- The path `/..` with a second NUL behind it. -/
def nulPath : Bytes := [slash, dot, dot, 0, 0]

def sampleMount : Bytes := [slash, 0x6D]

/-- The sample path stays inside. -/
theorem PathParser.samplePath_inside : ∃ path, Path.ofData .char samplePath = some path ∧
    (parse (fun _ => []) path).isValid = true ∧
      InsideMount sampleMount ((parse (fun _ => []) path).buildHostPath sampleMount) := by
  refine ⟨_, rfl, by decide, (buildHostPath_inside_iff _ _ _ (by decide)).mpr (Or.inr ?_)⟩
  rintro ⟨before, rest, heq, -, -⟩
  have : (0 : UInt8) ∈ [slash, 0x61, slash, dot, dot, slash, 0x62] := by
    rw [show [slash, 0x61, slash, dot, dot, slash, 0x62] = _ from heq]
    simp
  exact absurd this (by decide)

/-- The path with a NUL is valid, and the host sees `/m/..`. -/
theorem PathParser.nulPath_not_inside : ∃ path, Path.ofData .char nulPath = some path ∧
    (parse (fun _ => []) path).isValid = true ∧
      ¬ InsideMount sampleMount ((parse (fun _ => []) path).buildHostPath sampleMount) := by
  refine ⟨_, rfl, by decide, ?_⟩
  rintro ⟨walk, heq, hwalk⟩
  have hw : walk = [dotDot] := by
    have heq' : [[(0x6D : UInt8)], dotDot] = [[0x6D]] ++ walk := heq
    simpa using heq'.symm
  have := hwalk walk List.prefix_rfl
  rw [hw] at this
  exact absurd this (by decide)

end SweepDSEmu.FileSys
