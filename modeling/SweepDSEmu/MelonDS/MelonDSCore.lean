import Mathlib.Data.List.Basic

/-!
# The saves of DS games

`MelonDSCore` keeps the save memory of a cart in a file.  `Load` reads the file after a newer `.sav` next to the ROM has
been copied over it, and `FlushSave` writes the save memory back.

* melonDS itself is a parameter: `ParseROM` makes a cart with a blank save memory, and `SetNDSSave` fills it.
* A frame of the game makes some writes to the save memory.  A cart remembers them, which only the statements use.
* `InsertCart` puts a cart into the running console without reading its file: `Clean` excludes the cases in which the
  file is lost.
* The name of the file is made of the stem of the path alone.

A path is the string it is written as, with the separators of POSIX.
-/

namespace SweepDSEmu

abbrev HostPath := List Char

structure MelonDS where
  /-- `ParseROM`, with the blank save memory of the new cart. -/
  parseROM : List UInt8 → Option (List UInt8)
  /-- `SetNDSSave`, for the save memory of the cart and the data. -/
  setNDSSave : List UInt8 → List UInt8 → List UInt8

structure MelonDS.TakesSave (melon : MelonDS) : Prop where
  full : ∀ memory data, data.length = memory.length → melon.setNDSSave memory data = data
  nil : ∀ data, melon.setNDSSave [] data = []

structure HostFile where
  contents : List UInt8
  time : Nat
  deriving DecidableEq

structure DSCart where
  blank : List UInt8
  save : List UInt8
  /-- The writes of the game to the save memory since the cart was inserted. -/
  writes : List (Nat × UInt8) := []
  deriving DecidableEq

inductive MelonDSResult where
  | success
  | errorLoader
  | errorInvalidFormat
  | errorSystemMode
  deriving DecidableEq

structure MelonDSCore where
  files : HostPath → Option HostFile
  /-- The console with its cart slot. -/
  nds : Option (Option DSCart) := none
  loadedRomPath : HostPath := []
  loaded : Bool := false

namespace MelonDSCore

def filename (path : HostPath) : HostPath := (path.reverse.takeWhile (· ≠ '/')).reverse

def parent (path : HostPath) : HostPath := (path.reverse.dropWhile (· ≠ '/')).reverse

def stem (name : HostPath) : HostPath :=
  if name = ['.', '.'] then name
  else
    match name.reverse.dropWhile (· ≠ '.') with
    | _ :: c :: rest => (c :: rest).reverse
    | _ => name

def savExtension : HostPath := ['.', 's', 'a', 'v']

def saveDirFor (dir path : HostPath) : HostPath := dir ++ ['/'] ++ stem (filename path) ++ savExtension

def legacySave (path : HostPath) : HostPath := parent path ++ stem (filename path) ++ savExtension

def fileExists (files : HostPath → Option HostFile) (path : HostPath) : Bool := path ≠ [] && (files path).isSome

def readWholeFile (files : HostPath → Option HostFile) (path : HostPath) : List UInt8 :=
  ((files path).map HostFile.contents).getD []

/-- What the system decides during a call: whether the files of a DSi are there, whether a file could be copied, and the
time of a file that is written. -/
structure Env where
  dsi : Bool := false
  copyFails : Bool := false
  now : Nat := 0

/-- `Load` copies a newer save next to the ROM over the one of the core. -/
def syncLegacy (dir : HostPath) (files : HostPath → Option HostFile) (path : HostPath) (env : Env) :
    HostPath → Option HostFile :=
  match files (legacySave path) with
  | none => files
  | some legacy =>
    let syncFromLegacy :=
      match files (saveDirFor dir path) with
      | none => true
      | some ours => decide (ours.time < legacy.time)
    if syncFromLegacy && !env.copyFails then
      Function.update files (saveDirFor dir path) (some { contents := legacy.contents, time := env.now })
    else files

def load (melon : MelonDS) (dir : HostPath) (s : MelonDSCore) (path : HostPath) (env : Env) :
    MelonDSCore × MelonDSResult :=
  if path = [] then
    -- the menu of the DSi needs its files
    if env.dsi then ({ s with nds := some none, loadedRomPath := [], loaded := true }, .success)
    else ({ s with nds := none }, .errorSystemMode)
  else if fileExists s.files path then
    let romdata := readWholeFile s.files path
    if romdata = [] then ({ s with nds := none }, .errorLoader)
    else
      match melon.parseROM romdata with
      | none => ({ s with nds := none }, .errorInvalidFormat)
      | some blank =>
        let files := syncLegacy dir s.files path env
        let savedata := readWholeFile files (saveDirFor dir path)
        let save := if savedata = [] then blank else melon.setNDSSave blank savedata
        ({ files := files
           nds := some (some { blank := blank, save := save })
           loadedRomPath := path
           loaded := true }, .success)
  else (s, .errorLoader)

def insertCart (melon : MelonDS) (s : MelonDSCore) (path : HostPath) : MelonDSCore × Bool :=
  if s.nds.isSome && s.loaded && s.loadedRomPath = [] then
    if fileExists s.files path then
      let romdata := readWholeFile s.files path
      if romdata = [] then (s, false)
      else
        match melon.parseROM romdata with
        | none => (s, false)
        | some blank =>
          ({ s with nds := some (some { blank := blank, save := blank }), loadedRomPath := path }, true)
    else (s, false)
  else (s, false)

/-- The writes of the game to the save memory.  Those outside of it do nothing. -/
def applyWrites (memory : List UInt8) (writes : List (Nat × UInt8)) : List UInt8 :=
  writes.foldl (fun m w => m.set w.1 w.2) memory

def runFrame (s : MelonDSCore) (writes : List (Nat × UInt8)) : MelonDSCore :=
  match s.nds with
  | some (some cart) =>
    if s.loaded then
      { s with nds := some (some { cart with
          save := applyWrites cart.save writes, writes := cart.writes ++ writes }) }
    else s
  | _ => s

/-- The file that `FlushSave` writes, and its contents. -/
def flushed (dir : HostPath) (s : MelonDSCore) : Option (HostPath × List UInt8) :=
  match s.nds with
  | some (some cart) =>
    if s.loaded && cart.save ≠ [] then some (saveDirFor dir s.loadedRomPath, cart.save) else none
  | _ => none

def flushSave (dir : HostPath) (s : MelonDSCore) (env : Env) : MelonDSCore :=
  match s.flushed dir with
  | some (path, save) => { s with files := Function.update s.files path (some { contents := save, time := env.now }) }
  | none => s

def shutdown (dir : HostPath) (s : MelonDSCore) (env : Env) : MelonDSCore :=
  { s.flushSave dir env with nds := none, loaded := false }

/-- The calls of the frontend.  `Reset` leaves the cart and its save memory as they are. -/
inductive Op where
  | load (path : HostPath) (env : Env)
  | insertCart (path : HostPath)
  | runFrame (writes : List (Nat × UInt8))
  | reset
  | flushSave (env : Env)
  | shutdown (env : Env)

def exec (melon : MelonDS) (dir : HostPath) (s : MelonDSCore) : Op → MelonDSCore
  | .load path env => (s.load melon dir path env).1
  | .insertCart path => (s.insertCart melon path).1
  | .runFrame writes => s.runFrame writes
  | .reset => s
  | .flushSave env => s.flushSave dir env
  | .shutdown env => s.shutdown dir env

/-- The calls one after the other, from a core that has nothing loaded. -/
def run (melon : MelonDS) (dir : HostPath) (files : HostPath → Option HostFile) (ops : List Op) : MelonDSCore :=
  ops.foldl (exec melon dir) { files := files }

def romPaths (ops : List Op) : List HostPath :=
  ops.filterMap fun
    | .load path _ | .insertCart path => some path
    | _ => none

def previousContents (files : HostPath → Option HostFile) (path : HostPath) (cart : DSCart) : List UInt8 :=
  if readWholeFile files path = [] then cart.blank else readWholeFile files path

/-- `FlushSave` writes what is in the file, changed by the writes of the game since its cart was inserted. -/
def SavesKept (dir : HostPath) (s : MelonDSCore) : Prop :=
  ∀ path save, s.flushed dir = some (path, save) →
    ∃ cart, s.nds = some (some cart) ∧ save = applyWrites (previousContents s.files path cart) cart.writes

def HasSave (melon : MelonDS) (s : MelonDSCore) (path : HostPath) (blank : List UInt8) : Prop :=
  readWholeFile s.files path ≠ [] ∧ melon.parseROM (readWholeFile s.files path) = some blank ∧ blank ≠ []

/-- A save file that `Load` reads has the size of the save memory.  Where `InsertCart` puts a cart into the console
there is no save file, or only a blank one. -/
def Clean (melon : MelonDS) (dir : HostPath) (s : MelonDSCore) : Op → Prop
  | .load path env => ∀ blank, s.HasSave melon path blank →
    readWholeFile (syncLegacy dir s.files path env) (saveDirFor dir path) = [] ∨
      (readWholeFile (syncLegacy dir s.files path env) (saveDirFor dir path)).length = blank.length
  | .insertCart path => ∀ blank, s.HasSave melon path blank → s.nds.isSome → s.loaded → s.loadedRomPath = [] →
    readWholeFile s.files (saveDirFor dir path) = [] ∨ readWholeFile s.files (saveDirFor dir path) = blank
  | _ => True

def CleanRun (melon : MelonDS) (dir : HostPath) : MelonDSCore → List Op → Prop
  | _, [] => True
  | s, op :: ops => Clean melon dir s op ∧ CleanRun melon dir (s.exec melon dir op) ops

section Writes

variable {memory : List UInt8} {writes : List (Nat × UInt8)}

@[simp]
theorem length_applyWrites : (applyWrites memory writes).length = memory.length := by
  unfold applyWrites
  induction writes generalizing memory with
  | nil => rfl
  | cons w writes ih => simp [ih]

theorem applyWrites_append (memory : List UInt8) (writes more : List (Nat × UInt8)) :
    applyWrites memory (writes ++ more) = applyWrites (applyWrites memory writes) more := by
  exact List.foldl_append

private theorem getElem?_applyWrites (m m' : List UInt8) (hlen : m.length = m'.length) (i : Nat)
    (writes : List (Nat × UInt8)) (h : m[i]? = m'[i]? ∨ ∃ w ∈ writes, w.1 = i) :
    (applyWrites m writes)[i]? = (applyWrites m' writes)[i]? := by
  induction writes generalizing m m' with
  | nil =>
    rcases h with h | ⟨w, hw, -⟩
    · exact h
    · cases hw
  | cons w writes ih =>
    refine ih (m.set w.1 w.2) (m'.set w.1 w.2) (by simpa using hlen) ?_
    by_cases hi : w.1 = i
    · left
      subst hi
      simp [List.getElem?_set, hlen]
    · rcases h with h | ⟨v, hv, hvi⟩
      · left
        simpa [List.getElem?_set, hi] using h
      · rcases List.mem_cons.mp hv with rfl | hv
        · exact absurd hvi hi
        · exact Or.inr ⟨v, hv, hvi⟩

private theorem getElem?_applyWrites_of_notMem (m : List UInt8) (i : Nat) (writes : List (Nat × UInt8))
    (h : ∀ w ∈ writes, w.1 ≠ i) : (applyWrites m writes)[i]? = m[i]? := by
  induction writes generalizing m with
  | nil => rfl
  | cons w writes ih =>
    have hw : w.1 ≠ i := h w (List.mem_cons_self ..)
    have hrest := ih (m.set w.1 w.2) fun v hv => h v (List.mem_cons_of_mem w hv)
    refine Eq.trans hrest ?_
    simp [hw]

theorem applyWrites_applyWrites (memory : List UInt8) (writes : List (Nat × UInt8)) :
    applyWrites (applyWrites memory writes) writes = applyWrites memory writes := by
  apply List.ext_getElem?
  intro i
  apply getElem?_applyWrites _ _ length_applyWrites
  by_cases h : ∃ w ∈ writes, w.1 = i
  · exact Or.inr h
  · left
    apply getElem?_applyWrites_of_notMem
    intro w hw hi
    exact h ⟨w, hw, hi⟩

end Writes

section Run

variable {melon : MelonDS} {dir : HostPath} {s : MelonDSCore}

def Belongs (dir : HostPath) (s : MelonDSCore) : Prop :=
  ∀ cart, s.nds = some (some cart) → cart.save ≠ [] →
    cart.save = applyWrites (previousContents s.files (saveDirFor dir s.loadedRomPath) cart) cart.writes

theorem Belongs.savesKept (h : Belongs dir s) : SavesKept dir s := by
  intro path save hflushed
  unfold flushed at hflushed
  split at hflushed
  · rename_i cart hcart
    split at hflushed
    · rename_i hsave
      cases hflushed
      have hne : cart.save ≠ [] := by
        have := (Bool.and_eq_true _ _).mp hsave
        exact of_decide_eq_true this.2
      exact ⟨cart, hcart, h cart hcart hne⟩
    · cases hflushed
  · cases hflushed

theorem Belongs.of_nds_none (h : s.nds = none) : Belongs dir s := by
  intro cart hcart
  rw [h] at hcart
  cases hcart

theorem Belongs.load (h : Belongs dir s) (hmelon : melon.TakesSave) {path : HostPath} {env : Env}
    (hclean : Clean melon dir s (.load path env)) : Belongs dir (s.load melon dir path env).1 := by
  unfold MelonDSCore.load
  split
  · split
    · intro cart hcart
      cases hcart
    · exact Belongs.of_nds_none rfl
  · split
    · dsimp only
      split
      · exact Belongs.of_nds_none rfl
      · rename_i hrom
        split
        · exact Belongs.of_nds_none rfl
        · rename_i blank hparse
          intro cart hcart hne
          cases hcart
          unfold previousContents
          split
          · rfl
          · rename_i hfile
            rw [if_neg hfile] at hne
            -- the file is not empty: it fills the save memory
            have hblank : blank ≠ [] := by
              rintro rfl
              exact hne (hmelon.nil _)
            have hlen := (hclean blank ⟨hrom, hparse, hblank⟩).resolve_left hfile
            exact hmelon.full blank _ hlen
    · exact h

theorem Belongs.insertCart (h : Belongs dir s) {path : HostPath} (hclean : Clean melon dir s (.insertCart path)) :
    Belongs dir (s.insertCart melon path).1 := by
  unfold MelonDSCore.insertCart
  split
  · rename_i hmenu
    simp only [Bool.and_eq_true, decide_eq_true_eq] at hmenu
    obtain ⟨⟨hnds, hloaded⟩, hpath⟩ := hmenu
    split
    · dsimp only
      split
      · exact h
      · rename_i hrom
        split
        · exact h
        · rename_i blank hparse
          intro cart hcart hne
          cases hcart
          unfold previousContents
          rcases hclean blank ⟨hrom, hparse, hne⟩ hnds hloaded hpath with hfile | hfile
          · rw [if_pos hfile]
            rfl
          · rw [hfile, if_neg hne]
            rfl
    · exact h
  · exact h

theorem Belongs.runFrame (h : Belongs dir s) (writes : List (Nat × UInt8)) : Belongs dir (s.runFrame writes) := by
  unfold MelonDSCore.runFrame
  split
  · rename_i cart hcart
    split
    · intro cart' hcart' hne
      cases hcart'
      have hsave : cart.save ≠ [] := by
        intro hnil
        apply hne
        apply List.eq_nil_of_length_eq_zero
        rw [length_applyWrites, hnil, List.length_nil]
      rw [applyWrites_append]
      exact congrArg (applyWrites · writes) (h cart hcart hsave)
    · exact h
  · exact h

theorem Belongs.flushSave (h : Belongs dir s) (env : Env) : Belongs dir (s.flushSave dir env) := by
  unfold MelonDSCore.flushSave
  cases hflushed : s.flushed dir with
  | none => exact h
  | some written =>
    obtain ⟨path, save⟩ := written
    intro cart hcart hne
    have hkept := h cart hcart hne
    unfold flushed at hflushed
    rw [hcart] at hflushed
    dsimp only at hflushed
    split at hflushed
    · cases hflushed
      -- the file holds the save memory now, and the writes of the game are in it already
      have hread : readWholeFile (Function.update s.files (saveDirFor dir s.loadedRomPath)
          (some { contents := cart.save, time := env.now })) (saveDirFor dir s.loadedRomPath) = cart.save := by
        unfold readWholeFile
        rw [Function.update_self]
        rfl
      unfold previousContents
      rw [hread, if_neg hne]
      calc cart.save
          = applyWrites (previousContents s.files (saveDirFor dir s.loadedRomPath) cart) cart.writes := hkept
        _ = applyWrites (applyWrites (previousContents s.files (saveDirFor dir s.loadedRomPath) cart) cart.writes)
              cart.writes := (applyWrites_applyWrites _ _).symm
        _ = applyWrites cart.save cart.writes := by rw [← hkept]
    · cases hflushed

theorem Belongs.exec (h : Belongs dir s) (hmelon : melon.TakesSave) {op : Op} (hop : Clean melon dir s op) :
    Belongs dir (s.exec melon dir op) := by
  cases op with
  | load path env => exact h.load hmelon hop
  | insertCart path => exact h.insertCart hop
  | runFrame writes => exact h.runFrame writes
  | reset => exact h
  | flushSave env => exact h.flushSave env
  | shutdown env => exact Belongs.of_nds_none rfl

theorem Belongs.foldl (h : Belongs dir s) (hmelon : melon.TakesSave) {ops : List Op}
    (hops : CleanRun melon dir s ops) : Belongs dir (ops.foldl (MelonDSCore.exec melon dir) s) := by
  induction ops generalizing s with
  | nil => exact h
  | cons op ops ih => exact ih (h.exec hmelon hops.1) hops.2

end Run

theorem saveDirFor_inj {dir p q : HostPath} (h : saveDirFor dir p = saveDirFor dir q) :
    stem (filename p) = stem (filename q) := by
  exact List.append_cancel_left (List.append_cancel_right h)

/-- If `InsertCart` meets no save file, save files have the size of the save memory, and the stems of the ROMs differ,
then what is written back is what was in the file but for the writes of the game, and no two ROMs have the same file. -/
theorem run_savesKept (melon : MelonDS) (hmelon : melon.TakesSave) (dir : HostPath)
    (files : HostPath → Option HostFile) (ops : List Op) (hops : CleanRun melon dir { files := files } ops)
    (hstems : ∀ p ∈ romPaths ops, ∀ q ∈ romPaths ops, stem (filename p) = stem (filename q) → p = q) :
    SavesKept dir (run melon dir files ops) ∧
      ∀ p ∈ romPaths ops, ∀ q ∈ romPaths ops, p ≠ q → saveDirFor dir p ≠ saveDirFor dir q := by
  constructor
  · have hinitial : Belongs dir { files := files } := Belongs.of_nds_none rfl
    exact (hinitial.foldl hmelon hops).savesKept
  · intro p hp q hq hne heq
    exact hne (hstems p hp q hq (saveDirFor_inj heq))

def sampleMelon : MelonDS where
  parseROM := fun _ => some [0xFF, 0xFF]
  setNDSSave := fun memory data => data.take memory.length ++ memory.drop data.length

def sampleDir : HostPath := ['/', 's']

def sampleRom : HostPath := ['/', 'g', '.', 'n', 'd', 's']

def sampleFiles : HostPath → Option HostFile := fun path =>
  if path = sampleRom then some { contents := [1], time := 0 }
  else if path = saveDirFor sampleDir sampleRom then some { contents := [7, 8], time := 0 }
  else none

/-- The game is loaded, and writes to its save memory before and after the save is written back. -/
def sampleOps : List Op := [.load sampleRom {}, .runFrame [(1, 9)], .flushSave {}, .runFrame [(0, 3)]]

theorem sampleOps_savesKept :
    (run sampleMelon sampleDir sampleFiles sampleOps).flushed sampleDir =
        some (saveDirFor sampleDir sampleRom, [3, 9]) ∧
      SavesKept sampleDir (run sampleMelon sampleDir sampleFiles sampleOps) ∧
      ∀ p ∈ romPaths sampleOps, ∀ q ∈ romPaths sampleOps, p ≠ q → saveDirFor sampleDir p ≠ saveDirFor sampleDir q := by
  have hmelon : sampleMelon.TakesSave := by
    constructor
    · intro memory data hlen
      show data.take memory.length ++ memory.drop data.length = data
      rw [hlen, List.drop_length, ← hlen, List.take_length, List.append_nil]
    · intro data
      simp [sampleMelon]
  have hread : readWholeFile (syncLegacy sampleDir sampleFiles sampleRom {}) (saveDirFor sampleDir sampleRom) =
      [7, 8] := by decide
  have hops : CleanRun sampleMelon sampleDir { files := sampleFiles } sampleOps := by
    refine ⟨?_, trivial, trivial, trivial, trivial⟩
    rintro blank ⟨-, hparse, -⟩
    cases hparse
    exact Or.inr ((congrArg List.length hread).trans rfl)
  refine ⟨by decide, run_savesKept sampleMelon hmelon sampleDir sampleFiles sampleOps hops ?_⟩
  intro p hp q hq _
  have hp' : p = sampleRom := by simpa [romPaths, sampleOps] using hp
  have hq' : q = sampleRom := by simpa [romPaths, sampleOps] using hq
  rw [hp', hq']

/-- The console starts with its menu, and the game is inserted. -/
def insertOps : List Op := [.load [] { dsi := true }, .insertCart sampleRom]

/-- The blank save memory is written over the save. -/
theorem insertOps_not_savesKept :
    (run sampleMelon sampleDir sampleFiles insertOps).flushed sampleDir =
        some (saveDirFor sampleDir sampleRom, [0xFF, 0xFF]) ∧
      ¬ SavesKept sampleDir (run sampleMelon sampleDir sampleFiles insertOps) := by
  have hflushed : (run sampleMelon sampleDir sampleFiles insertOps).flushed sampleDir =
      some (saveDirFor sampleDir sampleRom, [0xFF, 0xFF]) := by decide
  refine ⟨hflushed, ?_⟩
  intro h
  obtain ⟨cart, hcart, hsave⟩ := h _ _ hflushed
  have hin : (run sampleMelon sampleDir sampleFiles insertOps).nds =
      some (some { blank := [0xFF, 0xFF], save := [0xFF, 0xFF] }) := by decide
  have hread : readWholeFile (run sampleMelon sampleDir sampleFiles insertOps).files
      (saveDirFor sampleDir sampleRom) = [7, 8] := by decide
  rw [hin] at hcart
  cases hcart
  unfold previousContents at hsave
  rw [hread] at hsave
  exact absurd hsave (by decide)

end MelonDSCore

end SweepDSEmu
