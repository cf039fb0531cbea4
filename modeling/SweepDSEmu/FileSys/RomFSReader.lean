import SweepDSEmu.FileSys.ArticReads
import SweepDSEmu.Lib.StreamCipher

/-!
# Direct reads of a RomFS

`DirectRomFSReader`, which reads a part of a file on the disk through lines, and decrypts it when it is encrypted.  The
keystream is given by its position, and the answers of the disk from outside.
-/

namespace SweepDSEmu.FileSys.ReadCache

def romFSLineSize : Nat := 2 ^ 13

def romFSLineCount : Nat := 16

/-- What a RomFS is encrypted with. -/
structure Crypto where
  keystream : Nat → UInt8
  cryptoOffset : Nat

structure DirectRomFSReader where
  file : File
  crypto : Option Crypto
  fileOffset : Nat
  dataSize : Nat

namespace DirectRomFSReader

variable (r : DirectRomFSReader)

def decrypt (offset : Nat) (bytes : Bytes) : Bytes :=
  match r.crypto with
  | none => bytes
  | some crypto => xorStream (fun i => crypto.keystream ((crypto.cryptoOffset + offset) % 2 ^ 64 + i)) bytes

def contents (offset : Nat) : Bytes := r.decrypt offset (r.file.bytes.drop ((r.fileOffset + offset) % 2 ^ 64))

/-- `ReadAtBytes`, and what it read decrypted.  An error is the greatest size, and as many bytes are decrypted. -/
def fetch (answers : Nat → Answer) (length offset requests : Nat) : Fetched × Nat :=
  match (answers requests).bytes r.file ((r.fileOffset + offset) % 2 ^ 64) length with
  | some read => (.got read.length (r.decrypt offset read), requests + 1)
  | none =>
    match r.crypto with
    | none => (.got (2 ^ 64 - 1) [], requests + 1)
    | some _ => (.aborts, requests + 1)

/-- A read is cut off at the end of the RomFS. -/
def clamp (offset length : Nat) : Nat := min length ((r.dataSize + 2 ^ 64 - offset) % 2 ^ 64)

def readFile (answers : Nat → Answer) (s : Lines romFSLineSize) (offset length : Nat) :
    ReadResult × Lines romFSLineSize :=
  let length := r.clamp offset length
  if length = 0 then (.success [], s)
  else
    let segments := breakupRead romFSLineSize romFSLineSize offset length
    if skipsLines romFSLineSize segments then
      match r.fetch answers length offset s.requests with
      | (.aborts, _) => (.aborts, s)
      | (.failed _, requests) => (.failed, { s with requests })
      | (.got readSize bytes, requests) =>
        (if readSize = 2 ^ 64 - 1 then .failed else .success bytes, { s with requests })
    else readLines romFSLineCount (r.fetch answers romFSLineSize) s segments

def newLines (uninit : Nat → UInt8) : Lines romFSLineSize where
  cache := { array := fun i => { data := Vector.ofFn fun j => uninit (i * romFSLineSize + j), filled := 0 } }

def run (answers : Nat → Answer) (s : Lines romFSLineSize) (reads : List (Nat × Nat)) : Lines romFSLineSize :=
  reads.foldl (fun s read => (r.readFile answers s read.1 read.2).2) s

variable {r} {answers : Nat → Answer} {s : Lines romFSLineSize}

@[simp] theorem length_decrypt (offset : Nat) (bytes : Bytes) : (r.decrypt offset bytes).length = bytes.length := by
  unfold decrypt
  cases r.crypto with
  | none => rfl
  | some crypto => exact length_xorStream _ _

theorem decrypt_take (offset n : Nat) (bytes : Bytes) :
    r.decrypt offset (bytes.take n) = (r.decrypt offset bytes).take n := by
  unfold decrypt
  cases r.crypto with
  | none => rfl
  | some crypto => exact xorStream_take _ _ n

/-- The range of a read does not wrap around, on the disk and in the keystream. -/
def InRange (r : DirectRomFSReader) (limit : Nat) : Prop :=
  r.fileOffset + limit ≤ 2 ^ 64 ∧ ∀ crypto ∈ r.crypto, crypto.cryptoOffset + limit ≤ 2 ^ 64

theorem contents_follow {limit : Nat} (h : r.InRange limit) : Follows r.contents limit := by
  intro offset n hlt
  obtain ⟨hfile, hcrypto⟩ := h
  have hdrop : (r.file.bytes.drop ((r.fileOffset + offset) % 2 ^ 64)).drop n =
      r.file.bytes.drop ((r.fileOffset + (offset + n)) % 2 ^ 64) := by
    rw [List.drop_drop, Nat.mod_eq_of_lt (by omega), Nat.mod_eq_of_lt (by omega), Nat.add_assoc]
  unfold contents decrypt
  cases hr : r.crypto with
  | none => exact hdrop
  | some crypto =>
    have hlimit := hcrypto crypto hr
    dsimp only
    rw [xorStream_drop, hdrop, Nat.mod_eq_of_lt (by omega : crypto.cryptoOffset + offset < 2 ^ 64),
      Nat.mod_eq_of_lt (by omega : crypto.cryptoOffset + (offset + n) < 2 ^ 64)]
    simp only [Nat.add_assoc]

/-- A read of the disk returns bytes of the RomFS, and all it has when it is answered in full; the greatest size stands
for an error. -/
theorem fetch_spec (r : DirectRomFSReader) (answers : Nat → Answer) (length offset requests : Nat) :
    (r.fetch answers length offset requests).2 = requests + 1 ∧
    ((r.fetch answers length offset requests).1 = .aborts ∨
      ((r.fetch answers length offset requests).1 = .got (2 ^ 64 - 1) [] ∧ answers requests = .failed) ∨
      ∃ bytes, (r.fetch answers length offset requests).1 = .got bytes.length bytes ∧
        bytes = (r.contents offset).take bytes.length ∧ bytes.length ≤ length ∧
        (answers requests = .full → bytes = (r.contents offset).take length)) := by
  unfold fetch
  cases hanswer : (answers requests).bytes r.file ((r.fileOffset + offset) % 2 ^ 64) length with
  | none =>
    have hfailed : answers requests = .failed := by
      cases hkind : answers requests with
      | failed => rfl
      | short n =>
        rw [hkind] at hanswer
        cases hanswer
      | full =>
        rw [hkind] at hanswer
        cases hanswer
    cases r.crypto with
    | none => exact ⟨rfl, .inr (.inl ⟨rfl, hfailed⟩)⟩
    | some crypto => exact ⟨rfl, .inl rfl⟩
  | some read =>
    obtain ⟨hread, hle, hfull⟩ := bytes_of_answer hanswer
    refine ⟨rfl, .inr (.inr ⟨r.decrypt offset read, ?_, ?_, ?_, ?_⟩)⟩
    · rw [length_decrypt]
    · rw [length_decrypt, contents, ← decrypt_take, ← hread]
    · rwa [length_decrypt]
    · intro hanswered
      rw [hfull hanswered, decrypt_take]
      rfl

theorem fetch_fetches (r : DirectRomFSReader) (answers : Nat → Answer) :
    Fetches r.contents romFSLineSize answers (r.fetch answers romFSLineSize) where
  later page requests := by
    rw [(fetch_spec r answers romFSLineSize page requests).1]
    exact Nat.le_succ _
  failed page requests bytes h := by
    obtain ⟨-, haborts | ⟨herror, -⟩ | ⟨read, hgot, -⟩⟩ := fetch_spec r answers romFSLineSize page requests
    · rw [haborts] at h
      cases h
    · rw [herror] at h
      cases h
    · rw [hgot] at h
      cases h
  got page requests readSize bytes h := by
    obtain ⟨-, haborts | ⟨herror, -⟩ | ⟨read, hgot, hbytes, hle, -⟩⟩ := fetch_spec r answers romFSLineSize page requests
    · rw [haborts] at h
      cases h
    · rw [herror] at h
      obtain ⟨-, rfl⟩ := Fetched.got.inj h
      exact ⟨rfl, Nat.zero_le _⟩
    · rw [hgot] at h
      obtain ⟨-, rfl⟩ := Fetched.got.inj h
      exact ⟨hbytes, hle⟩
  full page requests readSize bytes h hall := by
    obtain ⟨hrequests, haborts | ⟨-, hfailed⟩ | ⟨read, hgot, -, -, hfull⟩⟩ :=
      fetch_spec r answers romFSLineSize page requests
    · rw [haborts] at h
      cases h
    · rw [hall requests le_rfl (by omega)] at hfailed
      cases hfailed
    · rw [hgot] at h
      obtain ⟨-, rfl⟩ := Fetched.got.inj h
      exact hfull (hall requests le_rfl (by omega))

theorem newLines_sound (r : DirectRomFSReader) (uninit : Nat → UInt8) : Sound r.contents (newLines uninit) where
  placed := List.Perm.refl _
  lines := by simp [StaticLRUCache.All, newLines]

theorem readFile_sound (h : Sound r.contents s) (offset length : Nat) :
    Sound r.contents (r.readFile answers s offset length).2 := by
  unfold readFile
  dsimp only
  split
  · exact h
  split
  · split
    · exact h
    · exact ⟨h.placed, h.lines⟩
    · exact ⟨h.placed, h.lines⟩
  · exact (readLines_sound (fetch_fetches r answers) (by decide) h _).1

theorem run_sound (h : Sound r.contents s) (reads : List (Nat × Nat)) : Sound r.contents (r.run answers s reads) := by
  induction reads generalizing s with
  | nil => exact h
  | cons read reads ih => exact ih (readFile_sound h read.1 read.2)

def FindsFilled (r : DirectRomFSReader) (answers : Nat → Answer) (s : Lines romFSLineSize)
    (offset length : Nat) : Prop :=
  let segments := breakupRead romFSLineSize romFSLineSize offset (r.clamp offset length)
  if r.clamp offset length = 0 then True
  else if skipsLines romFSLineSize segments then True
  else
    r.InRange (offset + r.clamp offset length + 1) ∧
      ReadsFilled r.contents romFSLineCount (r.fetch answers romFSLineSize) s segments

theorem readFile_transparent (h : Sound r.contents s) {offset length : Nat}
    (hfinds : r.FindsFilled answers s offset length) :
    Transparent r.contents offset (r.clamp offset length)
      (AnsweredInFull answers s.requests (r.readFile answers s offset length).2.requests)
      (r.readFile answers s offset length).1 := by
  unfold FindsFilled at hfinds
  unfold readFile
  by_cases hzero : r.clamp offset length = 0
  · rw [if_pos hzero]
    exact ⟨by simp, by simp, fun _ => by rw [hzero, List.take_zero]⟩
  rw [if_neg hzero] at hfinds ⊢
  by_cases hskip : skipsLines romFSLineSize
      (breakupRead romFSLineSize romFSLineSize offset (r.clamp offset length)) = true
  · rw [if_pos hskip]
    obtain ⟨hrequests, hspec⟩ := fetch_spec r answers (r.clamp offset length) offset s.requests
    rcases hresult : r.fetch answers (r.clamp offset length) offset s.requests with ⟨fetched, requests⟩
    rw [hresult] at hrequests hspec
    obtain rfl | ⟨rfl, -⟩ | ⟨bytes, rfl, hbytes, hle, hfull⟩ := hspec
    · trivial
    · trivial
    · dsimp only at hrequests ⊢
      split
      · trivial
      · exact ⟨hbytes, hle, fun hall => hfull (hall s.requests le_rfl (by omega))⟩
  · rw [if_neg hskip] at hfinds ⊢
    obtain ⟨hrange, hfilled⟩ := hfinds
    have hend : offset + r.clamp offset length ≤ 2 ^ 64 := by
      have := hrange.1
      omega
    exact readLines_transparent (fetch_fetches r answers) (by decide) h (contents_follow hrange) (Nat.lt_succ_self _)
      (breakupRead_covers (by decide) (by decide) le_rfl hend hskip) hfilled

end DirectRomFSReader

/-- Whatever was read and answered before, a read that finds filled what it finds is transparent. -/
theorem reads_transparent (offset length : Nat) :
    (∀ (server : Server) (file : File) (ops : List ArticCache.Op),
      let s := (ArticCache.new server file).run server ops
      s.FindsFilled server offset length →
        Transparent s.file.contents offset length
          (AnsweredInFull server.answers s.requests (s.read server offset length).2.requests)
          (s.read server offset length).1) ∧
    ∀ (r : DirectRomFSReader) (answers : Nat → Answer) (uninit : Nat → UInt8) (reads : List (Nat × Nat)),
      let s := r.run answers (DirectRomFSReader.newLines uninit) reads
      r.FindsFilled answers s offset length →
        Transparent r.contents offset (r.clamp offset length)
          (AnsweredInFull answers s.requests (r.readFile answers s offset length).2.requests)
          (r.readFile answers s offset length).1 := by
  constructor
  · intro server file ops s hfinds
    exact ArticCache.read_transparent (ArticCache.run_inv (ArticCache.inv_new server file) ops) hfinds
  · intro r answers uninit reads s hfinds
    exact DirectRomFSReader.readFile_transparent
      (DirectRomFSReader.run_sound (DirectRomFSReader.newLines_sound r uninit) reads) hfinds

/-- A server for a file of one byte that answers every request in the same way. -/
def answering (answer : Answer) : Server where
  maxRequest := articLineSize
  answers _ := answer
  uninit _ := 0

def oneByte : File where
  bytes := [7]
  size_lt := by decide

/-- A line that was fetched is read from again. -/
theorem reads_transparent_again :
    let s := (ArticCache.new (answering .full) oneByte).run (answering .full) [.read 0 1]
    s.FindsFilled (answering .full) 0 1 ∧
      Transparent s.file.contents 0 1
        (AnsweredInFull (answering .full).answers s.requests (s.read (answering .full) 0 1).2.requests)
        (s.read (answering .full) 0 1).1 := by
  have hfinds : ((ArticCache.new (answering .full) oneByte).run (answering .full) [.read 0 1]).FindsFilled
      (answering .full) 0 1 := by
    refine ⟨by decide, ⟨?_, .inl rfl, fun _ _ _ => trivial⟩⟩
    exact le_refl 1
  exact ⟨hfinds, (reads_transparent 0 1).1 (answering .full) oneByte [.read 0 1] hfinds⟩

/-- After a read that failed, the next one returns what is in memory. -/
theorem failed_not_transparent :
    let s := (ArticCache.new (answering .failed) oneByte).run (answering .failed) [.read 0 8]
    ¬ Transparent s.file.contents 0 8
        (AnsweredInFull (answering .failed).answers s.requests (s.read (answering .failed) 0 8).2.requests)
        (s.read (answering .failed) 0 8).1 := by
  intro s htransparent
  have hread : (s.read (answering .failed) 0 8).1 = .success ((s.cache.array 0).copyOut 0 8 articLineSize ++ []) := rfl
  rw [hread, List.append_nil] at htransparent
  have hlength := congrArg List.length htransparent.1
  rw [Line.copyOut, List.length_take, List.length_take, List.length_drop, Vector.length_toList] at hlength
  change min 8 4096 = min (min 8 4096) 1 at hlength
  omega

end SweepDSEmu.FileSys.ReadCache
