import SweepDSEmu.Lib.TaggedJoin
import SweepDSEmu.Lib.ByteOrder

/-!
# Keys of the Artic caches

`ArticCacheProvider` has a cache for each key that `PathsToVector` makes of an archive path and a file path.

* A key puts the binary form of one path behind that of the other with one byte for a type between them.  So it stands for
  one pair of paths if and only if no byte of the paths can be taken for that one: `unshared_iff`.
* Whoever shares a cache has the same key, in every run of a provider: `run_sameKey`.
-/

namespace SweepDSEmu.FileSys.Artic

abbrev Bytes := List UInt8

inductive LowPathType where
  | invalid
  | empty
  | binary
  | char
  | wchar
  deriving DecidableEq

def LowPathType.toU8 : LowPathType → UInt8
  | invalid => 0
  | empty => 1
  | binary => 2
  | char => 3
  | wchar => 4

structure Path where
  type : LowPathType
  binary : Bytes := []
  string : Bytes := []
  u16str : List UInt16 := []
  deriving DecidableEq

def Path.asBinary (p : Path) : Bytes :=
  match p.type with
  | .binary => p.binary
  | .char => p.string
  | .wchar => p.u16str.flatMap fun c => toLittleEndian 2 c.toNat
  | .empty => []
  | .invalid => []

def pathsToVector (archivePath filePath : Path) : Bytes :=
  let ret := [filePath.type.toU8]
  let ret := ret ++ archivePath.asBinary
  let ret := ret ++ [archivePath.type.toU8]
  ret ++ filePath.asBinary

def Path.Same (p q : Path) : Prop := p.type = q.type ∧ p.asBinary = q.asBinary

/-- Paths of a type have binary forms of length `n`. -/
def LowPathType.HasLength : LowPathType → Nat → Prop
  | invalid, n | empty, n => n = 0
  | binary, _ | char, _ => True
  | wchar, n => n % 2 = 0

theorem toU8_injective : Function.Injective LowPathType.toU8 := by
  intro t u h
  cases t <;> cases u <;> first | rfl | exact absurd h (by decide)

private theorem toLittleEndian_u16 (b₀ b₁ : UInt8) :
    toLittleEndian 2 (UInt16.ofNat (ofLittleEndian [b₀, b₁])).toNat = [b₀, b₁] := by
  have hlt : ofLittleEndian [b₀, b₁] < 256 ^ 2 := ofLittleEndian_lt [b₀, b₁]
  have hbytes := toLittleEndian_ofLittleEndian [b₀, b₁]
  rw [UInt16.toNat_ofNat', Nat.mod_eq_of_lt (by omega)]
  exact hbytes

private theorem exists_u16str (n : Nat) (bytes : Bytes) (h : bytes.length = 2 * n) :
    ∃ u16str : List UInt16, u16str.flatMap (fun c => toLittleEndian 2 c.toNat) = bytes := by
  induction n generalizing bytes with
  | zero =>
    have hnil : bytes = [] := List.eq_nil_of_length_eq_zero h
    exact ⟨[], by rw [hnil, List.flatMap_nil]⟩
  | succ n ih =>
    match bytes, h with
    | b₀ :: b₁ :: bytes, h =>
      obtain ⟨u16str, hu⟩ := ih bytes (by simp at h; omega)
      refine ⟨UInt16.ofNat (ofLittleEndian [b₀, b₁]) :: u16str, ?_⟩
      rw [List.flatMap_cons, toLittleEndian_u16, hu]
      rfl

private theorem length_u16str (u16str : List UInt16) :
    (u16str.flatMap fun c => toLittleEndian 2 c.toNat).length = 2 * u16str.length := by
  induction u16str with
  | nil => rfl
  | cons c u16str ih =>
    rw [List.flatMap_cons, List.length_append, length_toLittleEndian, ih, List.length_cons]
    omega

theorem hasLength_asBinary (p : Path) : p.type.HasLength p.asBinary.length := by
  unfold Path.asBinary LowPathType.HasLength
  cases p.type with
  | wchar =>
    rw [length_u16str]
    omega
  | _ => simp

theorem exists_path (t : LowPathType) (bytes : Bytes) (h : t.HasLength bytes.length) :
    ∃ p : Path, p.type = t ∧ p.asBinary = bytes := by
  cases t with
  | invalid | empty => exact ⟨⟨_, [], [], []⟩, rfl, (List.eq_nil_of_length_eq_zero h).symm⟩
  | binary => exact ⟨⟨.binary, bytes, [], []⟩, rfl, rfl⟩
  | char => exact ⟨⟨.char, [], bytes, []⟩, rfl, rfl⟩
  | wchar =>
    change bytes.length % 2 = 0 at h
    obtain ⟨u16str, hu⟩ := exists_u16str (bytes.length / 2) bytes (by omega)
    exact ⟨⟨.wchar, [], [], u16str⟩, rfl, hu⟩

def SplitsFile (a f : Path) : Prop :=
  ∃ (i : Nat) (t : LowPathType), f.asBinary[i]? = some t.toU8 ∧ t.HasLength (a.asBinary.length + 1 + i) ∧
    f.type.HasLength (f.asBinary.length - (i + 1))

def SplitsArchive (a f : Path) : Prop :=
  ∃ (i : Nat) (t : LowPathType), a.asBinary[i]? = some t.toU8 ∧ t.HasLength i ∧
    f.type.HasLength (a.asBinary.length - (i + 1) + 1 + f.asBinary.length)

theorem pathsToVector_eq_iff (a f a' f' : Path) :
    pathsToVector a f = pathsToVector a' f' ↔ f.type = f'.type ∧
      taggedJoin LowPathType.toU8 a.asBinary a.type f.asBinary =
        taggedJoin LowPathType.toU8 a'.asBinary a'.type f'.asBinary := by
  have hkey (a f : Path) : pathsToVector a f =
      f.type.toU8 :: taggedJoin LowPathType.toU8 a.asBinary a.type f.asBinary := by
    simp [pathsToVector, taggedJoin]
  rw [hkey, hkey, List.cons.injEq, toU8_injective.eq_iff]

/-- A key stands for one pair of paths when no byte of them can be taken for the type of an archive path. -/
theorem pathsToVector_determines_iff (a f : Path) :
    (∀ a' f', pathsToVector a f = pathsToVector a' f' → a.Same a' ∧ f.Same f') ↔
      ¬ SplitsFile a f ∧ ¬ SplitsArchive a f := by
  constructor
  · intro h
    constructor
    · rintro ⟨i, t, hi, harchive, hfile⟩
      have hlt : i < f.asBinary.length := (List.getElem?_eq_some_iff.mp hi).1
      obtain ⟨a', rfl, ha'⟩ := exists_path t (a.asBinary ++ a.type.toU8 :: f.asBinary.take i) <| by
        have hlength : (a.asBinary ++ a.type.toU8 :: f.asBinary.take i).length = a.asBinary.length + 1 + i := by
          simp
          omega
        rwa [hlength]
      obtain ⟨f', hf', hbinary⟩ := exists_path f.type (f.asBinary.drop (i + 1)) (by rwa [List.length_drop])
      have hkey : pathsToVector a f = pathsToVector a' f' := by
        rw [pathsToVector_eq_iff, taggedJoin_eq_iff toU8_injective]
        exact ⟨hf'.symm, .inr (.inl ⟨i, hi, ha', hbinary⟩)⟩
      have hsame := (h a' f' hkey).2.2
      have hlength := congrArg List.length hsame
      rw [hbinary, List.length_drop] at hlength
      omega
    · rintro ⟨i, t, hi, harchive, hfile⟩
      have hlt : i < a.asBinary.length := (List.getElem?_eq_some_iff.mp hi).1
      obtain ⟨a', rfl, ha'⟩ := exists_path t (a.asBinary.take i) (by rwa [List.length_take_of_le hlt.le])
      obtain ⟨f', hf', hbinary⟩ := exists_path f.type (a.asBinary.drop (i + 1) ++ a.type.toU8 :: f.asBinary) <| by
        have hlength : (a.asBinary.drop (i + 1) ++ a.type.toU8 :: f.asBinary).length =
            a.asBinary.length - (i + 1) + 1 + f.asBinary.length := by
          simp
          omega
        rwa [hlength]
      have hkey : pathsToVector a f = pathsToVector a' f' := by
        rw [pathsToVector_eq_iff, taggedJoin_eq_iff toU8_injective]
        exact ⟨hf'.symm, .inr (.inr ⟨i, hi, ha', hbinary⟩)⟩
      have hsame := (h a' f' hkey).1.2
      have hlength := congrArg List.length hsame
      rw [ha', List.length_take_of_le hlt.le] at hlength
      omega
  · rintro ⟨hfile, harchive⟩ a' f' hkey
    rw [pathsToVector_eq_iff, taggedJoin_eq_iff toU8_injective] at hkey
    obtain ⟨htype, hjoin⟩ := hkey
    have ha' := hasLength_asBinary a'
    have hf' := hasLength_asBinary f'
    rw [← htype] at hf'
    rcases hjoin with ⟨hA, ht, hF⟩ | ⟨i, hi, hA, hF⟩ | ⟨i, hi, hA, hF⟩
    · exact ⟨⟨ht, hA⟩, htype, hF⟩
    · refine absurd ⟨i, a'.type, hi, ?_, ?_⟩ hfile
      · have hlt : i < f.asBinary.length := (List.getElem?_eq_some_iff.mp hi).1
        have hlength : a'.asBinary.length = a.asBinary.length + 1 + i := by
          rw [hA]
          simp
          omega
        rwa [hlength] at ha'
      · rwa [hF, List.length_drop] at hf'
    · refine absurd ⟨i, a'.type, hi, ?_, ?_⟩ harchive
      · have hlt : i < a.asBinary.length := (List.getElem?_eq_some_iff.mp hi).1
        rwa [hA, List.length_take_of_le hlt.le] at ha'
      · have hlength : f'.asBinary.length = a.asBinary.length - (i + 1) + 1 + f.asBinary.length := by
          rw [hF]
          simp
          omega
        rwa [hlength] at hf'

structure ArticCacheProvider where
  fileCaches : Option (List (Bytes × Nat)) := none
  made : Nat := 0

namespace ArticCacheProvider

def provideCache (s : ArticCacheProvider) (path : Bytes) (create : Bool) : Option Nat × ArticCacheProvider :=
  match s.fileCaches with
  | none => (none, s)
  | some fileCaches =>
    match fileCaches.lookup path with
    | some res => (some res, s)
    | none =>
      if create then (some s.made, { fileCaches := some ((path, s.made) :: fileCaches), made := s.made + 1 })
      else (none, s)

def clearAllCache (s : ArticCacheProvider) : ArticCacheProvider :=
  { s with fileCaches := s.fileCaches.map fun _ => [] }

def ensureCacheCreated (s : ArticCacheProvider) : ArticCacheProvider :=
  { s with fileCaches := some (s.fileCaches.getD []) }

inductive Op where
  | provideCache (archivePath filePath : Path) (create : Bool)
  | clearAllCache
  | ensureCacheCreated

abbrev Provided := (Path × Path) × Nat

/-- Serves one request, and notes the cache that it provided. -/
def step (s : ArticCacheProvider × List Provided) : Op → ArticCacheProvider × List Provided
  | .provideCache a f create =>
    match s.1.provideCache (pathsToVector a f) create with
    | (some cache, s') => (s', ((a, f), cache) :: s.2)
    | (none, s') => (s', s.2)
  | .clearAllCache => (s.1.clearAllCache, s.2)
  | .ensureCacheCreated => (s.1.ensureCacheCreated, s.2)

def run (ops : List Op) : ArticCacheProvider × List Provided := ops.foldl step ({}, [])

structure Sound (s : ArticCacheProvider × List Provided) (key : Nat → Bytes) : Prop where
  stored : ∀ fileCaches ∈ s.1.fileCaches, ∀ p ∈ fileCaches, key p.2 = p.1 ∧ p.2 < s.1.made
  provided : ∀ p ∈ s.2, key p.2 = pathsToVector p.1.1 p.1.2 ∧ p.2 < s.1.made

private theorem mem_of_lookup {l : List (Bytes × Nat)} {path : Bytes} {n : Nat} (h : l.lookup path = some n) :
    (path, n) ∈ l := by
  rw [List.lookup_eq_some_iff] at h
  obtain ⟨l₁, l₂, rfl, -⟩ := h
  simp

private theorem sound_provideCache {s : ArticCacheProvider} {given : List Provided} {key : Nat → Bytes}
    (h : Sound (s, given) key) (a f : Path) (create : Bool) :
    ∃ key', Sound (step (s, given) (.provideCache a f create)) key' := by
  obtain ⟨_ | fileCaches, made⟩ := s
  · exact ⟨key, h⟩
  · have hstored := h.stored fileCaches rfl
    have hprovided := h.provided
    cases hlookup : fileCaches.lookup (pathsToVector a f) with
    | some n =>
      have hn := hstored _ (mem_of_lookup hlookup)
      refine ⟨key, ?_⟩
      simp only [step, provideCache, hlookup]
      refine ⟨h.stored, ?_⟩
      intro p hp
      rcases List.mem_cons.mp hp with rfl | hp
      · exact hn
      · exact hprovided p hp
    | none =>
      cases create with
      | false =>
        refine ⟨key, ?_⟩
        simp only [step, provideCache, hlookup]
        exact h
      | true =>
        -- the new cache has a number that no other one has
        have hold (n : Nat) (hn : n < made) : Function.update key made (pathsToVector a f) n = key n :=
          Function.update_of_ne (Nat.ne_of_lt hn) _ _
        refine ⟨Function.update key made (pathsToVector a f), ?_⟩
        simp only [step, provideCache, hlookup]
        constructor
        · intro caches hcaches p hp
          cases hcaches
          rcases List.mem_cons.mp hp with rfl | hp
          · exact ⟨Function.update_self _ _ _, Nat.lt_succ_self made⟩
          · obtain ⟨hkey, hlt⟩ := hstored p hp
            exact ⟨(hold _ hlt).trans hkey, Nat.lt_succ_of_lt hlt⟩
        · intro p hp
          rcases List.mem_cons.mp hp with rfl | hp
          · exact ⟨Function.update_self _ _ _, Nat.lt_succ_self made⟩
          · obtain ⟨hkey, hlt⟩ := hprovided p hp
            exact ⟨(hold _ hlt).trans hkey, Nat.lt_succ_of_lt hlt⟩

theorem step_sound {s : ArticCacheProvider × List Provided} {key : Nat → Bytes} (h : Sound s key) (op : Op) :
    ∃ key', Sound (step s op) key' := by
  cases op with
  | provideCache a f create => exact sound_provideCache h a f create
  | clearAllCache =>
    refine ⟨key, ?_, h.provided⟩
    intro caches hcaches p hp
    obtain ⟨_, -, rfl⟩ := Option.map_eq_some_iff.mp hcaches
    cases hp
  | ensureCacheCreated =>
    refine ⟨key, ?_, h.provided⟩
    intro caches hcaches p hp
    cases hcaches
    cases hs : s.1.fileCaches with
    | none => simp [hs] at hp
    | some fileCaches =>
      rw [hs] at hp
      exact h.stored fileCaches hs p hp

theorem run_sound (ops : List Op) : ∃ key, Sound (run ops) key := by
  suffices ∀ s key, Sound s key → ∃ key', Sound (ops.foldl step s) key' from
    this ({}, []) (fun _ => []) ⟨by simp, by simp⟩
  induction ops with
  | nil => exact fun s key h => ⟨key, h⟩
  | cons op ops ih =>
    intro s key h
    obtain ⟨key₁, h₁⟩ := step_sound h op
    exact ih (step s op) key₁ h₁

theorem run_sameKey {ops : List Op} {a f a' f' : Path} {n : Nat} (h : ((a, f), n) ∈ (run ops).2)
    (h' : ((a', f'), n) ∈ (run ops).2) : pathsToVector a f = pathsToVector a' f' := by
  obtain ⟨key, hkey⟩ := run_sound ops
  exact (hkey.provided _ h).1.symm.trans (hkey.provided _ h').1

theorem run_shares {a f a' f' : Path} (h : pathsToVector a f = pathsToVector a' f') :
    ∃ ops n, ((a, f), n) ∈ (run ops).2 ∧ ((a', f'), n) ∈ (run ops).2 := by
  refine ⟨[.ensureCacheCreated, .provideCache a f true, .provideCache a' f' true], 0, ?_⟩
  simp [run, step, ensureCacheCreated, provideCache, h]

/-- No other file has the key of two paths, and none ever shares a cache with it, if and only if no byte of the paths can
be taken for the type of an archive path. -/
theorem unshared_iff (a f : Path) :
    ((∀ a' f', pathsToVector a f = pathsToVector a' f' → a.Same a' ∧ f.Same f') ↔
      ¬ SplitsFile a f ∧ ¬ SplitsArchive a f) ∧
    ((∀ ops a' f' n, ((a, f), n) ∈ (run ops).2 → ((a', f'), n) ∈ (run ops).2 → a.Same a' ∧ f.Same f') ↔
      ¬ SplitsFile a f ∧ ¬ SplitsArchive a f) := by
  have hkeys := pathsToVector_determines_iff a f
  refine ⟨hkeys, ?_⟩
  rw [← hkeys]
  constructor
  · intro h a' f' hkey
    obtain ⟨ops, n, hn, hn'⟩ := run_shares hkey
    exact h ops a' f' n hn hn'
  · intro h ops a' f' n hn hn'
    exact h a' f' (run_sameKey hn hn')

/-- Two files of two archives that share a key. -/
theorem pathsToVector_collides :
    ¬ ∀ a f a' f', pathsToVector a f = pathsToVector a' f' → a.Same a' ∧ f.Same f' := by
  intro h
  have hsame := h ⟨.binary, [1, 2, 5], [], []⟩ ⟨.binary, [], [], []⟩ ⟨.binary, [1], [], []⟩ ⟨.binary, [5, 2], [], []⟩ rfl
  exact absurd hsame.1.2 (by decide)

end ArticCacheProvider

end SweepDSEmu.FileSys.Artic
