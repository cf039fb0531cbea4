import SweepDSEmu.Lib.LaidOut
import SweepDSEmu.Lib.CheckedAccess

/-!
# Reads of a layered RomFS

`BuildFiles`, `GetSize` and `ReadFile` of `LayeredFS`: the files of a tree are laid out one behind the other, each on 16
bytes, and are read from the RomFS, from a file of the host, or from memory.

* The metadata are any bytes, and what the RomFS and the host hold is given from outside.
* An iterator before the first entry, or one past the end that is read from, is the fault `undefined`.
* Reads are slices of one image exactly when some file is not empty, the files are what they were when the tree was
  loaded, and the sizes fit: `image_iff`.
-/

namespace SweepDSEmu.FileSys.LayeredFS

abbrev Bytes := List UInt8

/-- `FileRelocationInfo`, but for the size. -/
inductive Relocation where
  | none (originalOffset : Nat)
  | replace (replaceFilePath : Bytes)
  | patch (patchedFile : Bytes)
  | removed
  deriving DecidableEq

structure File where
  relocation : Relocation
  size : Nat
  deriving DecidableEq

inductive Directory where
  | mk (files : List File) (directories : List Directory)

def prepareBuildFile (file : File) : List File := if file.relocation = .removed then [] else [file]

mutual

def prepareBuild : Directory → List File
  | .mk files directories => files.flatMap prepareBuildFile ++ prepareBuildAll directories

def prepareBuildAll : List Directory → List File
  | [] => []
  | directory :: directories => prepareBuild directory ++ prepareBuildAll directories

end

def alignUp (value : Nat) : Nat := if value % 16 = 0 then value else (value - value % 16 + 16) % 2 ^ 64

/-- One turn of the loop of `BuildFiles`, as far as the data of the files are concerned. -/
def buildFile (state : Nat × OrderedMap Nat File) (file : File) : Nat × OrderedMap Nat File :=
  ((state.1 + alignUp file.size) % 2 ^ 64, if file.size ≠ 0 then state.2.emplace state.1 file else state.2)

structure Rebuilt where
  metadata : Bytes
  currentDataOffset : Nat
  dataOffsetMap : OrderedMap Nat File

def rebuild (root : Directory) (metadata : Bytes) : Rebuilt :=
  let state := (prepareBuild root).foldl buildFile (0, [])
  { metadata := metadata, currentDataOffset := state.1, dataOffsetMap := state.2 }

def Rebuilt.getSize (fs : Rebuilt) : Nat := (fs.metadata.length + fs.currentDataOffset) % 2 ^ 64

structure Source where
  romfs : Bytes
  openFile : Bytes → Option Bytes
  romfs_lt : romfs.length < 2 ^ 64

inductive Fault where
  | assertion
  | undefined
  deriving DecidableEq

def copyInto (buffer bytes : Bytes) : Bytes := bytes ++ buffer.drop bytes.length

/-- Reads a part of a file into a buffer, in different ways depending on the relocation type. -/
def File.read (source : Source) (file : File) (relativeOffset toRead : Nat) (buffer : Bytes) : Except Fault Bytes :=
  match file.relocation with
  | .none originalOffset =>
    .ok (copyInto buffer ((source.romfs.drop ((originalOffset + relativeOffset) % 2 ^ 64)).take toRead))
  | .replace path =>
    match source.openFile path with
    | some replaceFile => .ok (copyInto buffer ((replaceFile.drop relativeOffset).take toRead))
    | none => .ok buffer
  | .patch patchedFile => if toRead = 0 then .ok [] else checkedSlice .undefined patchedFile relativeOffset toRead
  | .removed => .error .assertion

/-- The loop of `ReadFile`, from an iterator on.  `out` is what was read before. -/
def readFiles (source : Source) (length : Nat) (buffer : Bytes) :
    OrderedMap Nat File → Nat → Bytes → Except Fault Bytes
  | [], _, out => if out.length < length then .error .undefined else .ok out
  | (first, file) :: rest, offset, out =>
    if out.length < length then do
      let relativeOffset := (offset + 2 ^ 64 - first) % 2 ^ 64
      let toRead :=
        if relativeOffset < file.size then min (file.size - relativeOffset) (length - out.length) else 0
      let alignment :=
        (min ((alignUp file.size + 2 ^ 64 - relativeOffset) % 2 ^ 64) (length - out.length) + 2 ^ 64 - toRead) % 2 ^ 64
      let bytes ← file.read source relativeOffset toRead ((buffer.drop out.length).take toRead)
      readFiles source length buffer rest ((offset + toRead + alignment) % 2 ^ 64)
        (out ++ bytes ++ List.replicate alignment 0)
    else .ok out

def Rebuilt.readFile (source : Source) (fs : Rebuilt) (offset length : Nat) (buffer : Bytes) :
    Except Fault (Nat × Bytes) :=
  if fs.getSize < (offset + length) % 2 ^ 64 then .error .assertion
  else do
    let (out, offset) :=
      if offset < fs.metadata.length then
        ((fs.metadata.drop offset).take (min (fs.metadata.length - offset) length), 0)
      else ([], offset - fs.metadata.length)
    match fs.dataOffsetMap.prev (fs.dataOffsetMap.upperBound offset) with
    | none => .error .undefined
    | some current =>
      let out ← readFiles source length buffer (fs.dataOffsetMap.dropWhile fun e => e.1 < current) offset out
      return (out.length, copyInto buffer out)

def File.contents (source : Source) (file : File) : Bytes :=
  match file.relocation with
  | .none originalOffset => (source.romfs.drop originalOffset).take file.size
  | .replace path => ((source.openFile path).getD []).take file.size
  | .patch patchedFile => patchedFile
  | .removed => []

def padded (bytes : Bytes) : Bytes := bytes ++ List.replicate ((16 - bytes.length % 16) % 16) 0

structure IsImage (source : Source) (root : Directory) (metadata image : Bytes) : Prop where
  whole : ∀ file ∈ prepareBuild root, (file.contents source).length = file.size
  eq : image = metadata ++ (prepareBuild root).flatMap fun file => padded (file.contents source)
  length_eq : image.length = (rebuild root metadata).getSize
  read : ∀ offset length buffer, offset + length ≤ (rebuild root metadata).getSize → buffer.length = length →
    (rebuild root metadata).readFile source offset length buffer = .ok (length, (image.drop offset).take length)

def alignedSize (file : File) : Nat := file.size + (16 - file.size % 16) % 16

def dataSize (root : Directory) : Nat := totalSize alignedSize (prepareBuild root)

theorem alignedSize_eq_zero {file : File} : alignedSize file = 0 ↔ file.size = 0 := by
  unfold alignedSize
  omega

theorem alignUp_eq {file : File} (h : alignedSize file < 2 ^ 64) : alignUp file.size = alignedSize file := by
  unfold alignUp alignedSize at *
  split <;> omega

private theorem foldl_buildFile (done files : List File) (h : totalSize alignedSize (done ++ files) < 2 ^ 64) :
    files.foldl buildFile (totalSize alignedSize done, layOut alignedSize 0 done) =
      (totalSize alignedSize (done ++ files), layOut alignedSize 0 (done ++ files)) := by
  induction files generalizing done with
  | nil => rw [List.append_nil, List.foldl_nil]
  | cons file files ih =>
    have hassoc : done ++ file :: files = done ++ [file] ++ files := by simp
    rw [hassoc] at h ⊢
    have hsize : totalSize alignedSize (done ++ [file]) = totalSize alignedSize done + alignedSize file := by
      simp [totalSize_append]
    rw [totalSize_append, hsize] at h
    rw [List.foldl_cons, ← ih (done ++ [file]) (by rw [totalSize_append, hsize]; exact h), buildFile]
    congr 1
    refine Prod.ext ?_ ?_
    · rw [alignUp_eq (by omega), Nat.mod_eq_of_lt (by omega), hsize]
    · split
      case isTrue hpos =>
        have hemplace := emplace_layOut 0 done (fun hzero => hpos (alignedSize_eq_zero.mp hzero))
        rw [Nat.zero_add] at hemplace
        exact hemplace
      case isFalse hzero =>
        rw [layOut_append, layOut, if_pos (alignedSize_eq_zero.mpr (not_not.mp hzero)), layOut, List.append_nil]

theorem rebuild_eq {root : Directory} (metadata : Bytes) (h : dataSize root < 2 ^ 64) :
    rebuild root metadata =
      { metadata := metadata, currentDataOffset := dataSize root,
        dataOffsetMap := layOut alignedSize 0 (prepareBuild root) } := by
  have hfold := foldl_buildFile [] (prepareBuild root) h
  unfold rebuild
  rw [show (0, []) = (totalSize alignedSize [], layOut alignedSize 0 []) from rfl, hfold]
  rfl

variable {source : Source} {file : File}

theorem length_padded (bytes : Bytes) : (padded bytes).length = bytes.length + (16 - bytes.length % 16) % 16 := by
  rw [padded, List.length_append, List.length_replicate]

private theorem copyInto_of_length {buffer bytes : Bytes} (h : bytes.length = buffer.length) :
    copyInto buffer bytes = bytes := by
  rw [copyInto, h, List.drop_length, List.append_nil]

theorem read_whole (hremoved : file.relocation ≠ .removed) (hwhole : (file.contents source).length = file.size)
    {relativeOffset toRead : Nat} (hle : 0 < toRead → relativeOffset + toRead ≤ file.size) {buffer : Bytes}
    (hbuffer : buffer.length = toRead) :
    file.read source relativeOffset toRead buffer = .ok (((file.contents source).drop relativeOffset).take toRead) := by
  have hslice (bytes : Bytes) : ((bytes.take file.size).drop relativeOffset).take toRead =
      (bytes.drop relativeOffset).take toRead := by
    rw [List.drop_take, List.take_take, List.take_eq_take_iff]
    omega
  have hlength : (((file.contents source).drop relativeOffset).take toRead).length = buffer.length := by
    rw [List.length_take, List.length_drop]
    omega
  unfold File.read
  unfold File.contents at hwhole hlength ⊢
  cases hrelocation : file.relocation with
  | none originalOffset =>
    rw [hrelocation] at hwhole hlength
    dsimp only at hwhole hlength ⊢
    rw [hslice, List.drop_drop] at hlength ⊢
    have hoffset : (source.romfs.drop ((originalOffset + relativeOffset) % 2 ^ 64)).take toRead =
        (source.romfs.drop (originalOffset + relativeOffset)).take toRead := by
      by_cases hzero : toRead = 0
      · rw [hzero, List.take_zero, List.take_zero]
      · have hlt := source.romfs_lt
        have hinside := hle (Nat.pos_of_ne_zero hzero)
        rw [List.length_take, List.length_drop] at hwhole
        rw [Nat.mod_eq_of_lt (by omega)]
    rw [hoffset, copyInto_of_length hlength]
  | replace path =>
    rw [hrelocation] at hwhole hlength
    dsimp only at hwhole hlength ⊢
    cases hopen : source.openFile path with
    | none =>
      rw [hopen] at hlength
      have hbufferNil : buffer = [] := List.eq_nil_of_length_eq_zero (by simpa using hlength.symm)
      simp [hbufferNil]
    | some replaceFile =>
      rw [hopen, Option.getD_some, hslice] at hlength
      rw [Option.getD_some, hslice]
      dsimp only
      rw [copyInto_of_length hlength]
  | patch patchedFile =>
    rw [hrelocation] at hwhole
    dsimp only at hwhole ⊢
    split
    case isTrue hzero => rw [hzero, List.take_zero]
    case isFalse hpos => exact checkedSlice_of_le (by have := hle (Nat.pos_of_ne_zero hpos); omega)
  | removed => exact absurd hrelocation hremoved

private theorem drop_take_padded {bytes : Bytes} {size rel : Nat} (hsize : bytes.length = size)
    (hrel : rel < size + (16 - size % 16) % 16) (n : Nat) :
    ((padded bytes).drop rel).take (min (size + (16 - size % 16) % 16 - rel) n) =
      (bytes.drop rel).take (if rel < size then min (size - rel) n else 0) ++
        List.replicate
          (min (size + (16 - size % 16) % 16 - rel) n - if rel < size then min (size - rel) n else 0) 0 := by
  rw [padded, List.drop_append, List.take_append, List.drop_replicate, List.take_replicate, List.length_drop, hsize]
  congr 1
  · rw [List.take_eq_take_iff, List.length_drop, hsize]
    split <;> omega
  · congr 1
    split <;> omega

section Loop

variable {length : Nat} {buffer : Bytes}

theorem readFiles_done (entries : OrderedMap Nat File) (offset : Nat) {out : Bytes} (h : length ≤ out.length) :
    readFiles source length buffer entries offset out = .ok out := by
  cases entries with
  | nil => rw [readFiles, if_neg (by omega)]
  | cons entry entries => rw [readFiles, if_neg (by omega)]

/-- One turn of the loop reads as much of the file and its zeros as is wanted. -/
theorem readFiles_cons (hremoved : file.relocation ≠ .removed) (hwhole : (file.contents source).length = file.size)
    (rest : OrderedMap Nat File) {first rel : Nat} {out : Bytes} (hrel : rel < alignedSize file)
    (hfits : first + alignedSize file < 2 ^ 64) (hbuffer : buffer.length = length) (hmore : out.length < length) :
    readFiles source length buffer ((first, file) :: rest) (first + rel) out =
      readFiles source length buffer rest (first + rel + min (alignedSize file - rel) (length - out.length))
        (out ++
          ((padded (file.contents source)).drop rel).take (min (alignedSize file - rel) (length - out.length))) := by
  have hrelative : (first + rel + 2 ^ 64 - first) % 2 ^ 64 = rel := by omega
  have haligned : alignedSize file = file.size + (16 - file.size % 16) % 16 := rfl
  rw [readFiles, if_pos hmore]
  dsimp only
  rw [hrelative, alignUp_eq (by omega)]
  have hdistance : (alignedSize file + 2 ^ 64 - rel) % 2 ^ 64 = alignedSize file - rel := by omega
  have hparts := drop_take_padded hwhole (by rwa [← haligned]) (length - out.length)
  rw [← haligned] at hparts
  rw [hdistance, hparts]
  generalize hamount : (if rel < file.size then min (file.size - rel) (length - out.length) else 0) = toRead
  have htoRead : toRead ≤ min (alignedSize file - rel) (length - out.length) ∧
      (0 < toRead → rel + toRead ≤ file.size) := by
    rw [← hamount]
    split <;> omega
  have halignment : (min (alignedSize file - rel) (length - out.length) + 2 ^ 64 - toRead) % 2 ^ 64 =
      min (alignedSize file - rel) (length - out.length) - toRead := by omega
  have hread : file.read source rel toRead ((buffer.drop out.length).take toRead) =
      .ok (((file.contents source).drop rel).take toRead) := by
    apply read_whole hremoved hwhole htoRead.2
    rw [List.length_take, List.length_drop]
    omega
  rw [halignment, hread]
  change readFiles source length buffer rest _ _ = _
  rw [List.append_assoc]
  congr 1
  omega

end Loop

def dataImage (source : Source) (files : List File) : Bytes :=
  files.flatMap fun file => padded (file.contents source)

def Whole (source : Source) (files : List File) : Prop :=
  ∀ file ∈ files, file.relocation ≠ .removed ∧ (file.contents source).length = file.size

theorem length_dataImage {files : List File} (h : Whole source files) :
    (dataImage source files).length = totalSize alignedSize files := by
  induction files with
  | nil => rfl
  | cons file files ih =>
    have hfile := (h file List.mem_cons_self).2
    have hfiles := ih fun f hf => h f (List.mem_cons_of_mem _ hf)
    unfold dataImage at hfiles ⊢
    rw [List.flatMap_cons, List.length_append, hfiles, length_padded, hfile, totalSize_cons, alignedSize]

theorem dataImage_append (files files' : List File) :
    dataImage source (files ++ files') = dataImage source files ++ dataImage source files' := List.flatMap_append

section Files

variable {length : Nat} {buffer : Bytes} {files : List File}

private theorem readFiles_from (hremoved : file.relocation ≠ .removed)
    (hwhole : (file.contents source).length = file.size) {rest : OrderedMap Nat File} {image : Bytes} {start rel : Nat}
    (hrest : ∀ out : Bytes, length - out.length ≤ image.length →
      readFiles source length buffer rest (start + alignedSize file) out =
        .ok (out ++ image.take (length - out.length)))
    (hfits : start + alignedSize file < 2 ^ 64) (hbuffer : buffer.length = length) (out : Bytes)
    (hrel : rel < alignedSize file ∨ length ≤ out.length)
    (henough : length - out.length ≤ alignedSize file + image.length - rel) :
    readFiles source length buffer ((start, file) :: rest) (start + rel) out =
      .ok (out ++ ((padded (file.contents source) ++ image).drop rel).take (length - out.length)) := by
  by_cases hdone : length ≤ out.length
  · rw [readFiles_done _ _ hdone, Nat.sub_eq_zero_of_le hdone, List.take_zero, List.append_nil]
  have hinside := hrel.resolve_right hdone
  have hlength : (padded (file.contents source)).length = alignedSize file := by
    rw [length_padded, hwhole, alignedSize]
  have hpart : ((padded (file.contents source)).drop rel).length = alignedSize file - rel := by
    rw [List.length_drop, hlength]
  rw [readFiles_cons hremoved hwhole rest hinside hfits hbuffer (Nat.not_le.mp hdone),
    List.drop_append_of_le_length (by omega), List.take_append, hpart]
  by_cases hlast : length - out.length ≤ alignedSize file - rel
  · rw [Nat.min_eq_right hlast, readFiles_done, Nat.sub_eq_zero_of_le hlast, List.take_zero, List.append_nil]
    rw [List.length_append, List.length_take, hpart]
    omega
  · rw [Nat.min_eq_left (by omega), Nat.add_assoc, Nat.add_sub_cancel' hinside.le,
      List.take_of_length_le hpart.le, List.take_of_length_le (by omega), hrest]
    · rw [List.length_append, hpart, List.append_assoc, Nat.sub_add_eq]
    · rw [List.length_append, hpart]
      omega

theorem readFiles_layOut (hwhole : Whole source files) {start : Nat}
    (hfits : start + totalSize alignedSize files < 2 ^ 64) (hbuffer : buffer.length = length) (out : Bytes)
    (henough : length - out.length ≤ totalSize alignedSize files) :
    readFiles source length buffer (layOut alignedSize start files) start out =
      .ok (out ++ (dataImage source files).take (length - out.length)) := by
  induction files generalizing start out with
  | nil =>
    rw [totalSize_nil] at henough
    rw [readFiles_done _ _ (by omega)]
    simp [dataImage]
  | cons file files ih =>
    obtain ⟨hremoved, hsize⟩ := hwhole file List.mem_cons_self
    have hrest : Whole source files := fun f hf => hwhole f (List.mem_cons_of_mem _ hf)
    rw [totalSize_cons] at hfits henough
    have hlength := length_dataImage hrest
    change readFiles _ _ _ (if _ then _ else _) _ _ =
      .ok (_ ++ (padded (file.contents source) ++ dataImage source files).take _)
    split
    case isTrue hzero =>
      have hempty : padded (file.contents source) = [] := by
        apply List.eq_nil_of_length_eq_zero
        rw [length_padded, hsize]
        exact hzero
      rw [hempty, List.nil_append]
      exact ih hrest (by omega) out (by omega)
    case isFalse hpos =>
      exact readFiles_from hremoved hsize (fun out' h => ih hrest (by omega) out' (by omega)) (by omega) hbuffer out
        (.inl (Nat.pos_of_ne_zero hpos)) (by omega)

theorem readFiles_cursor (hwhole : Whole source files) (hfits : totalSize alignedSize files < 2 ^ 64)
    (hbuffer : buffer.length = length) (hne : layOut alignedSize 0 files ≠ []) (offset : Nat) (out : Bytes)
    (henough : offset + (length - out.length) ≤ totalSize alignedSize files) :
    ∃ current, (layOut alignedSize 0 files).prev ((layOut alignedSize 0 files).upperBound offset) = some current ∧
      readFiles source length buffer ((layOut alignedSize 0 files).dropWhile fun e => e.1 < current) offset out =
        .ok (out ++ ((dataImage source files).drop offset).take (length - out.length)) := by
  obtain ⟨before, file, after, rfl, hpos, hstart, hend, hprev, hdrop⟩ := prev_upperBound_layOut hne (Nat.zero_le offset)
  refine ⟨_, hprev, ?_⟩
  rw [Nat.zero_add] at hstart hend hdrop
  have hbefore : Whole source before := fun f hf => hwhole f (List.mem_append_left _ hf)
  have hafter : Whole source after := fun f hf => hwhole f (List.mem_append_right _ (List.mem_cons_of_mem _ hf))
  obtain ⟨hremoved, hsize⟩ := hwhole file (by simp)
  rw [totalSize_append, totalSize_cons] at hfits henough
  have hafterLength := length_dataImage hafter
  have hskip : (dataImage source (before ++ file :: after)).drop offset =
      (padded (file.contents source) ++ dataImage source after).drop (offset - totalSize alignedSize before) := by
    rw [dataImage_append, List.drop_append, length_dataImage hbefore, List.drop_of_length_le, List.nil_append]
    · rfl
    · rwa [length_dataImage hbefore]
  rw [Nat.zero_add, hdrop, layOut, if_neg hpos, hskip]
  have hoffset : offset = totalSize alignedSize before + (offset - totalSize alignedSize before) := by omega
  conv_lhs => rw [hoffset]
  exact readFiles_from hremoved hsize
    (fun out' h => readFiles_layOut hafter (by omega) hbuffer out' (by omega)) (by omega) hbuffer out (by omega)
    (by omega)

end Files

mutual

theorem not_removed_of_prepareBuild : (directory : Directory) →
    ∀ file ∈ prepareBuild directory, file.relocation ≠ .removed
  | .mk files directories => by
    intro file hfile
    rw [prepareBuild, List.mem_append, List.mem_flatMap] at hfile
    rcases hfile with ⟨f, -, hf⟩ | hfile
    · unfold prepareBuildFile at hf
      split at hf
      case isTrue => cases hf
      case isFalse hkept =>
        rw [List.mem_singleton.mp hf]
        exact hkept
    · exact not_removed_of_prepareBuildAll directories file hfile

theorem not_removed_of_prepareBuildAll : (directories : List Directory) →
    ∀ file ∈ prepareBuildAll directories, file.relocation ≠ .removed
  | [] => by
    intro file hfile
    cases hfile
  | directory :: directories => by
    intro file hfile
    rw [prepareBuildAll, List.mem_append] at hfile
    rcases hfile with hfile | hfile
    · exact not_removed_of_prepareBuild directory file hfile
    · exact not_removed_of_prepareBuildAll directories file hfile

end

theorem layOut_ne_nil_iff {files : List File} : layOut alignedSize 0 files ≠ [] ↔ ∃ file ∈ files, file.size ≠ 0 := by
  constructor
  · intro hne
    obtain ⟨before, file, after, rfl, hpos, -⟩ := exists_cursor hne le_rfl
    exact ⟨file, by simp, fun hzero => hpos (alignedSize_eq_zero.mpr hzero)⟩
  · intro ⟨file, hfile, hpos⟩ hnil
    obtain ⟨before, after, rfl⟩ := List.append_of_mem hfile
    rw [layOut_append, layOut, if_neg fun hzero => hpos (alignedSize_eq_zero.mp hzero)] at hnil
    simp at hnil

section Image

variable {root : Directory} {metadata : Bytes}

theorem getSize_eq (hfits : metadata.length + dataSize root < 2 ^ 64) :
    (rebuild root metadata).getSize = metadata.length + dataSize root := by
  rw [rebuild_eq metadata (by omega), Rebuilt.getSize, Nat.mod_eq_of_lt hfits]

theorem readFile_image (hwhole : Whole source (prepareBuild root)) (hne : ∃ file ∈ prepareBuild root, file.size ≠ 0)
    (hfits : metadata.length + dataSize root < 2 ^ 64) {offset length : Nat} {buffer : Bytes}
    (hend : offset + length ≤ metadata.length + dataSize root) (hbuffer : buffer.length = length) :
    (rebuild root metadata).readFile source offset length buffer =
      .ok (length, ((metadata ++ dataImage source (prepareBuild root)).drop offset).take length) := by
  have hsize := getSize_eq hfits
  have hdata := length_dataImage hwhole
  have hresult {out : Bytes} (h : out.length = length) : (out.length, copyInto buffer out) = (length, out) := by
    rw [copyInto_of_length (h.trans hbuffer.symm), h]
  unfold dataSize at hfits hend
  unfold Rebuilt.readFile
  rw [hsize, if_neg (by unfold dataSize; omega), rebuild_eq metadata (by unfold dataSize; omega)]
  by_cases hmetadata : offset < metadata.length
  · rw [if_pos hmetadata]
    dsimp only
    have hfirst : ((metadata.drop offset).take (min (metadata.length - offset) length)).length =
        min (metadata.length - offset) length := by
      rw [List.length_take, List.length_drop]
      omega
    obtain ⟨current, hcurrent, hread⟩ := readFiles_cursor hwhole (by omega) hbuffer (layOut_ne_nil_iff.mpr hne) 0
      ((metadata.drop offset).take (min (metadata.length - offset) length)) (by omega)
    have hslice : (metadata.drop offset).take (min (metadata.length - offset) length) ++
        ((dataImage source (prepareBuild root)).drop 0).take
          (length - ((metadata.drop offset).take (min (metadata.length - offset) length)).length) =
        ((metadata ++ dataImage source (prepareBuild root)).drop offset).take length := by
      rw [List.drop_append_of_le_length hmetadata.le, List.take_append, List.length_drop, hfirst, List.drop_zero]
      congr 1
      · rw [List.take_eq_take_iff, List.length_drop]
        omega
      · congr 1
        omega
    rw [hcurrent]
    dsimp only
    rw [hread, hslice]
    refine congrArg Except.ok (hresult ?_)
    rw [List.length_take, List.length_drop, List.length_append]
    omega
  · rw [if_neg hmetadata]
    dsimp only
    obtain ⟨current, hcurrent, hread⟩ := readFiles_cursor hwhole (by omega) hbuffer (layOut_ne_nil_iff.mpr hne)
      (offset - metadata.length) [] (by rw [List.length_nil]; omega)
    rw [hcurrent]
    dsimp only
    rw [hread, List.nil_append, List.length_nil, Nat.sub_zero, List.drop_append,
      List.drop_of_length_le (by omega : _ ≤ offset), List.nil_append]
    refine congrArg Except.ok (hresult ?_)
    rw [List.length_take, List.length_drop]
    omega

/-- Reads are slices of one image exactly when some file is not empty, the files have the contents that they had, and
the sizes fit. -/
theorem image_iff (source : Source) (root : Directory) (metadata : Bytes) :
    (∃ image, IsImage source root metadata image) ↔
      (∃ file ∈ prepareBuild root, file.size ≠ 0) ∧
      (∀ file ∈ prepareBuild root, (file.contents source).length = file.size) ∧
      metadata.length + dataSize root < 2 ^ 64 := by
  constructor
  · intro ⟨image, himage⟩
    have hwhole : Whole source (prepareBuild root) :=
      fun file hfile => ⟨not_removed_of_prepareBuild root file hfile, himage.whole file hfile⟩
    have hfits : metadata.length + dataSize root < 2 ^ 64 := by
      have hlength := himage.length_eq
      rw [himage.eq, List.length_append, Rebuilt.getSize] at hlength
      have hdata : ((prepareBuild root).flatMap fun file => padded (file.contents source)).length = dataSize root :=
        length_dataImage hwhole
      rw [hdata] at hlength
      rw [hlength]
      exact Nat.mod_lt _ (by decide)
    refine ⟨?_, himage.whole, hfits⟩
    by_contra hempty
    -- without an entry there is none before the end of the map
    have hread := himage.read 0 0 [] (Nat.zero_le _) rfl
    rw [rebuild_eq metadata (by omega), not_not.mp (mt layOut_ne_nil_iff.mp hempty)] at hread
    unfold Rebuilt.readFile at hread
    rw [if_neg (by simp)] at hread
    cases hread
  · intro ⟨hne, hcontents, hfits⟩
    have hwhole : Whole source (prepareBuild root) :=
      fun file hfile => ⟨not_removed_of_prepareBuild root file hfile, hcontents file hfile⟩
    have hsize := getSize_eq hfits
    refine ⟨metadata ++ dataImage source (prepareBuild root), hcontents, rfl, ?_, ?_⟩
    · rw [hsize, List.length_append, length_dataImage hwhole, dataSize]
    · intro offset length buffer hend hbuffer
      rw [hsize] at hend
      exact readFile_image hwhole hne hfits hend hbuffer

end Image

def noFiles : Directory := .mk [] []

/-- Its metadata cannot be read. -/
theorem noFiles_not_image :
    ¬ ∃ image, IsImage { romfs := [], openFile := fun _ => none, romfs_lt := by decide } noFiles
      (List.replicate 96 0) image := by
  intro ⟨image, himage⟩
  have hread := himage.read 0 16 (List.replicate 16 0) (by decide) (by decide)
  cases hread

end SweepDSEmu.FileSys.LayeredFS
