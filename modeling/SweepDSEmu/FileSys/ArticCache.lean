import SweepDSEmu.FileSys.CachedLines

/-!
# The cache of a file on an Artic server

`ArticCache` with its three caches: lines of pages, and whole reads of two sizes.  The file of the server stays the same
between two clears; its answers can fail or be short.

* Whatever is asked, what is returned for a request are bytes of the file: `readFromArtic_spec`.
-/

namespace SweepDSEmu.FileSys.ReadCache

def articLineSize : Nat := 4 * 1024

def articLineCount : Nat := 256

def maxBreakupSize : Nat := 8 * 1024

def bigCacheSkip : Nat := 1 * 1024 * 1024

def bigCacheLines : Nat := 1024

def veryBigCacheSkip : Nat := 10 * 1024 * 1024

def veryBigCacheLines : Nat := 24

/-- What is given from outside: how much a request may ask for, the answers to the requests in their order, and what is
in memory that nothing was written to. -/
structure Server where
  maxRequest : Nat
  answers : Nat → Answer
  uninit : Nat → UInt8

/-- The loop of `ReadFromArtic`, after some bytes were read. -/
def readFromArticLoop (server : Server) (file : File) (len offset : Nat) : Nat → Bytes → Nat → Fetched × Nat
  | 0, _, requests => (.aborts, requests)
  | fuel + 1, bytes, requests =>
    if bytes.length = len then (.got bytes.length bytes, requests)
    else
      let toRead := min server.maxRequest (len - bytes.length)
      -- the bytes that were read are in the file, so the sum does not wrap around
      match (server.answers requests).bytes file (offset + bytes.length) toRead with
      | none => (.failed bytes, requests + 1)
      | some read =>
        if read.length ≠ toRead then (.got (bytes ++ read).length (bytes ++ read), requests + 1)
        else readFromArticLoop server file len offset fuel (bytes ++ read) (requests + 1)

/-- `ReadFromArtic`; it never ends when requests may ask for nothing. -/
def readFromArtic (server : Server) (file : File) (len offset requests : Nat) : Fetched × Nat :=
  readFromArticLoop server file len offset (len + 1) [] requests

def Returns (file : File) (offset len : Nat) (full : Prop) : Fetched → Prop
  | .aborts => True
  | .failed bytes => bytes = (file.bytes.drop offset).take bytes.length ∧ bytes.length ≤ len
  | .got readSize bytes =>
    readSize = bytes.length ∧ bytes = (file.bytes.drop offset).take bytes.length ∧ bytes.length ≤ len ∧
      (full → bytes = (file.bytes.drop offset).take len)

section Requests

variable {server : Server} {file : File} {len offset : Nat}

private theorem append_of_take {bytes read l : Bytes} {n : Nat} (hbytes : bytes = l.take bytes.length)
    (hread : read = (l.drop bytes.length).take n) : bytes ++ read = l.take (bytes.length + n) := by
  rw [List.take_add, ← hbytes, ← hread]

theorem readFromArticLoop_spec (fuel : Nat) {bytes : Bytes} (requests : Nat)
    (hbytes : bytes = (file.bytes.drop offset).take bytes.length) (hle : bytes.length ≤ len) :
    requests ≤ (readFromArticLoop server file len offset fuel bytes requests).2 ∧
    Returns file offset len
      (AnsweredInFull server.answers requests (readFromArticLoop server file len offset fuel bytes requests).2)
      (readFromArticLoop server file len offset fuel bytes requests).1 := by
  induction fuel generalizing bytes requests with
  | zero => exact ⟨le_rfl, trivial⟩
  | succ fuel ih =>
    rw [readFromArticLoop]
    split
    case isTrue hdone => exact ⟨le_rfl, rfl, hbytes, hle, fun _ => by rw [← hdone]; exact hbytes⟩
    case isFalse hmore =>
      dsimp only
      cases hanswer : (server.answers requests).bytes file (offset + bytes.length)
          (min server.maxRequest (len - bytes.length)) with
      | none => exact ⟨Nat.le_succ _, hbytes, hle⟩
      | some read =>
        obtain ⟨hread, hasked, hfull⟩ := bytes_of_answer hanswer
        rw [← List.drop_drop] at hread hfull
        obtain ⟨hboth, -⟩ := take_length_of_eq_take (append_of_take hbytes hread)
        have hlength : (bytes ++ read).length ≤ len := by
          rw [List.length_append]
          omega
        dsimp only
        split
        case isTrue hshort =>
          refine ⟨Nat.le_succ _, rfl, hboth, hlength, ?_⟩
          intro hall
          have hwhole := hfull (hall requests le_rfl (Nat.lt_succ_self _))
          have hend := congrArg List.length hwhole
          rw [List.length_take, List.length_drop, List.length_drop] at hend
          rw [append_of_take hbytes hwhole, List.take_eq_take_iff, List.length_drop]
          omega
        case isFalse hcontinue =>
          obtain ⟨hlater, hreturns⟩ := ih (requests + 1) hboth hlength
          refine ⟨by omega, ?_⟩
          revert hreturns
          cases (readFromArticLoop server file len offset fuel (bytes ++ read) (requests + 1)).1 with
          | aborts => exact id
          | failed bytes' => exact id
          | got readSize bytes' =>
            rintro ⟨hsize, hbegin, hle', hfull'⟩
            exact ⟨hsize, hbegin, hle', fun hall => hfull' fun i hi hi' => hall i (by omega) hi'⟩

/-- `ReadFromArtic` returns bytes of the file, and all it has when every request was answered in full. -/
theorem readFromArtic_spec (server : Server) (file : File) (len offset requests : Nat) :
    requests ≤ (readFromArtic server file len offset requests).2 ∧
    Returns file offset len (AnsweredInFull server.answers requests (readFromArtic server file len offset requests).2)
      (readFromArtic server file len offset requests).1 :=
  readFromArticLoop_spec (len + 1) requests (by simp) (Nat.zero_le len)

theorem readFromArtic_fetches (server : Server) (file : File) (lineSize : Nat) :
    Fetches file.contents lineSize server.answers (readFromArtic server file lineSize) where
  later page requests := (readFromArtic_spec server file lineSize page requests).1
  failed page requests bytes h := by
    have hspec := (readFromArtic_spec server file lineSize page requests).2
    rw [h] at hspec
    exact hspec
  got page requests readSize bytes h := by
    have hspec := (readFromArtic_spec server file lineSize page requests).2
    rw [h] at hspec
    exact ⟨hspec.2.1, hspec.2.2.1⟩
  full page requests readSize bytes h hall := by
    have hspec := (readFromArtic_spec server file lineSize page requests).2
    rw [h] at hspec
    exact hspec.2.2.2 hall

end Requests

/-- A whole read, and how many bytes the fetch into it returned. -/
structure Entry where
  data : Bytes
  filled : Nat

/-- A vector of `length` bytes into which bytes were fetched. -/
def Entry.fill (server : Server) (length : Nat) (bytes : Bytes) : Entry where
  data := bytes ++ (List.range (length - bytes.length)).map server.uninit
  filled := bytes.length

structure ArticCache where
  file : File
  requests : Nat := 0
  cache : StaticLRUCache Nat (Line articLineSize)
  bigCache : StaticLRUCache (Nat × Nat) Entry
  veryBigCache : StaticLRUCache (Nat × Nat) Entry

def readEntry (server : Server) (file : File) (capacity : Nat) (cache : StaticLRUCache (Nat × Nat) Entry)
    (requests offset length : Nat) : ReadResult × StaticLRUCache (Nat × Nat) Entry × Nat :=
  match cache.request capacity (offset, length) with
  | (true, i, cache) => (.success ((cache.array i).data.take length), cache, requests)
  | (false, i, filling) =>
    match readFromArtic server file length offset requests with
    | (.aborts, _) => (.aborts, cache, requests)
    | (.failed bytes, requests) => (.failed, filling.set i (Entry.fill server length bytes), requests)
    | (.got readSize bytes, requests) =>
      let entry := Entry.fill server length bytes
      (.success (entry.data.take readSize), filling.set i entry, requests)

namespace ArticCache

def lines (s : ArticCache) : Lines articLineSize := { cache := s.cache, requests := s.requests }

def read (server : Server) (s : ArticCache) (offset length : Nat) : ReadResult × ArticCache :=
  if length = 0 then (.success [], s)
  else
    let segments := breakupRead articLineSize maxBreakupSize offset length
    if skipsLines articLineSize segments then
      if length < bigCacheSkip then
        match readEntry server s.file bigCacheLines s.bigCache s.requests offset length with
        | (result, bigCache, requests) => (result, { s with bigCache, requests })
      else if length < veryBigCacheSkip then
        match readEntry server s.file veryBigCacheLines s.veryBigCache s.requests offset length with
        | (result, veryBigCache, requests) => (result, { s with veryBigCache, requests })
      else
        match readFromArtic server s.file length offset s.requests with
        | (.aborts, _) => (.aborts, s)
        | (.failed _, requests) => (.failed, { s with requests })
        | (.got _ bytes, requests) => (.success bytes, { s with requests })
    else
      match readLines articLineCount (readFromArtic server s.file articLineSize) s.lines segments with
      | (result, lines) => (result, { s with cache := lines.cache, requests := lines.requests })

def cacheReady (s : ArticCache) (offset length : Nat) : Bool :=
  let segments := breakupRead articLineSize maxBreakupSize offset length
  if skipsLines articLineSize segments then false
  else segments.all fun seg => s.cache.contains (offsetToPage articLineSize seg.1)

def clear (s : ArticCache) (file : File) : ArticCache :=
  { s with file, cache := s.cache.clear, bigCache := s.bigCache.clear, veryBigCache := s.veryBigCache.clear }

inductive Op where
  | read (offset length : Nat)
  | cacheReady (offset length : Nat)
  | clear (file : File)

def step (server : Server) (s : ArticCache) : Op → ArticCache
  | .read offset length => (s.read server offset length).2
  | .cacheReady _ _ => s
  | .clear file => s.clear file

def new (server : Server) (file : File) : ArticCache where
  file
  cache := { array := fun i => { data := Vector.ofFn fun j => server.uninit (i * articLineSize + j), filled := 0 } }
  bigCache := { array := fun _ => { data := [], filled := 0 } }
  veryBigCache := { array := fun _ => { data := [], filled := 0 } }

def run (server : Server) (s : ArticCache) (ops : List Op) : ArticCache := ops.foldl (step server) s

end ArticCache

end SweepDSEmu.FileSys.ReadCache
