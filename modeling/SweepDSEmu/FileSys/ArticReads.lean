import SweepDSEmu.FileSys.ArticCache

/-!
# Transparent reads of the Artic cache

What the three caches hold stays what was fetched from the file, whatever is asked and answered.  A read that is there
is transparent when the fetch into it was not short, and one through the lines when it stays inside what was fetched.
-/

namespace SweepDSEmu.FileSys.ReadCache

/-- The fetch into a whole read returned bytes of its range. -/
structure Whole (file : File) (range : Nat × Nat) (entry : Entry) : Prop where
  filled_le : entry.filled ≤ range.2
  data : entry.data.take entry.filled = (file.bytes.drop range.1).take entry.filled

def EntryFilled (capacity : Nat) (cache : StaticLRUCache (Nat × Nat) Entry) (offset length : Nat) : Prop :=
  match cache.request capacity (offset, length) with
  | (true, i, cache) => (cache.array i).filled = length
  | (false, _, _) => True

section Entries

variable {server : Server} {file : File} {capacity : Nat} {cache : StaticLRUCache (Nat × Nat) Entry}

private theorem whole_fill {offset length : Nat} {bytes : Bytes}
    (h : bytes = (file.bytes.drop offset).take bytes.length) (hle : bytes.length ≤ length) :
    Whole file (offset, length) (Entry.fill server length bytes) where
  filled_le := hle
  data := by
    rw [Entry.fill, List.take_left]
    exact h

theorem readEntry_sound (server : Server) (hcapacity : 0 < capacity) (hplaced : cache.Placed)
    (hall : cache.All (Whole file)) (requests offset length : Nat) :
    (readEntry server file capacity cache requests offset length).2.1.Placed ∧
    (readEntry server file capacity cache requests offset length).2.1.All (Whole file) := by
  unfold readEntry
  rcases StaticLRUCache.request_all hcapacity hplaced hall (offset, length) with
    ⟨i, cache', hrequest, -, hall', hplaced'⟩ | ⟨i, filling, hrequest, hfill⟩
  · rw [hrequest]
    exact ⟨hplaced', hall'⟩
  · rw [hrequest]
    have hspec := (readFromArtic_spec server file length offset requests).2
    rcases hresult : readFromArtic server file length offset requests with ⟨_ | bytes | ⟨readSize, bytes⟩, requests'⟩
    · exact ⟨hplaced, hall⟩
    · rw [hresult] at hspec
      exact (hfill _ (whole_fill hspec.1 hspec.2)).symm
    · rw [hresult] at hspec
      exact (hfill _ (whole_fill hspec.2.1 hspec.2.2.1)).symm

theorem readEntry_transparent (hcapacity : 0 < capacity) (hplaced : cache.Placed) (hall : cache.All (Whole file))
    {offset length : Nat} (requests : Nat) (hfilled : EntryFilled capacity cache offset length) :
    Transparent file.contents offset length
      (AnsweredInFull server.answers requests (readEntry server file capacity cache requests offset length).2.2)
      (readEntry server file capacity cache requests offset length).1 := by
  unfold EntryFilled at hfilled
  unfold readEntry
  rcases StaticLRUCache.request_all hcapacity hplaced hall (offset, length) with
    ⟨i, cache', hrequest, hentry, -, -⟩ | ⟨i, filling, hrequest, -⟩
  · rw [hrequest] at hfilled ⊢
    have hdata := hentry.data
    rw [hfilled] at hdata
    obtain ⟨hbegin, hle⟩ := take_length_of_eq_take hdata
    exact ⟨hbegin, hle, fun _ => hdata⟩
  · rw [hrequest]
    have hspec := (readFromArtic_spec server file length offset requests).2
    rcases hresult : readFromArtic server file length offset requests with ⟨_ | bytes | ⟨readSize, bytes⟩, requests'⟩
    · trivial
    · trivial
    · rw [hresult] at hspec
      obtain ⟨hsize, hspec⟩ := hspec
      dsimp only
      rw [Entry.fill, hsize, List.take_left]
      exact hspec

end Entries

namespace ArticCache

structure Inv (s : ArticCache) : Prop where
  lines : Sound s.file.contents s.lines
  bigPlaced : s.bigCache.Placed
  big : s.bigCache.All (Whole s.file)
  veryBigPlaced : s.veryBigCache.Placed
  veryBig : s.veryBigCache.All (Whole s.file)

variable {server : Server} {s : ArticCache}

theorem inv_new (server : Server) (file : File) : Inv (new server file) where
  lines := { placed := List.Perm.refl _, lines := by simp [StaticLRUCache.All, ArticCache.lines, new] }
  bigPlaced := List.Perm.refl _
  big := by simp [StaticLRUCache.All, new]
  veryBigPlaced := List.Perm.refl _
  veryBig := by simp [StaticLRUCache.All, new]

private theorem sound_requests {contents : Nat → Bytes} {lines : Lines articLineSize}
    (h : Sound contents lines) {requests : Nat} :
    Sound contents { lines with requests } := ⟨h.placed, h.lines⟩

private theorem lineCount_pos : 0 < articLineCount := by decide

private theorem read_inv (h : Inv s) (offset length : Nat) : Inv (s.read server offset length).2 := by
  unfold read
  split
  · exact h
  · dsimp only
    split
    · split
      · obtain ⟨hplaced, hall⟩ := readEntry_sound server (by decide : 0 < bigCacheLines) h.bigPlaced h.big s.requests
          offset length
        exact { h with lines := sound_requests h.lines, bigPlaced := hplaced, big := hall }
      · split
        · obtain ⟨hplaced, hall⟩ := readEntry_sound server (by decide : 0 < veryBigCacheLines) h.veryBigPlaced h.veryBig
            s.requests offset length
          exact { h with lines := sound_requests h.lines, veryBigPlaced := hplaced, veryBig := hall }
        · split
          · exact h
          · exact { h with lines := sound_requests h.lines }
          · exact { h with lines := sound_requests h.lines }
    · obtain ⟨hsound, -⟩ := readLines_sound (readFromArtic_fetches server s.file articLineSize) lineCount_pos h.lines
        (breakupRead articLineSize maxBreakupSize offset length)
      exact { h with lines := hsound }

theorem step_inv (h : Inv s) (op : Op) : Inv (step server s op) := by
  cases op with
  | read offset length => exact read_inv h offset length
  | cacheReady offset length => exact h
  | clear file =>
    refine ⟨⟨StaticLRUCache.clear_placed _, StaticLRUCache.clear_all _⟩, ?_, ?_, ?_, ?_⟩
    · exact StaticLRUCache.clear_placed _
    · exact StaticLRUCache.clear_all _
    · exact StaticLRUCache.clear_placed _
    · exact StaticLRUCache.clear_all _

theorem run_inv (h : Inv s) (ops : List Op) : Inv (run server s ops) := by
  induction ops generalizing s with
  | nil => exact h
  | cons op ops ih => exact ih (step_inv h op)

def FindsFilled (s : ArticCache) (server : Server) (offset length : Nat) : Prop :=
  let segments := breakupRead articLineSize maxBreakupSize offset length
  if length = 0 then True
  else if skipsLines articLineSize segments then
    if length < bigCacheSkip then EntryFilled bigCacheLines s.bigCache offset length
    else if length < veryBigCacheSkip then EntryFilled veryBigCacheLines s.veryBigCache offset length
    else True
  else
    offset + length ≤ 2 ^ 64 ∧
      ReadsFilled s.file.contents articLineCount (readFromArtic server s.file articLineSize) s.lines segments

theorem read_transparent (h : Inv s) {offset length : Nat} (hfinds : s.FindsFilled server offset length) :
    Transparent s.file.contents offset length
      (AnsweredInFull server.answers s.requests (s.read server offset length).2.requests)
      (s.read server offset length).1 := by
  unfold FindsFilled at hfinds
  unfold read
  by_cases hzero : length = 0
  · rw [if_pos hzero]
    exact ⟨by simp, by simp, fun _ => by rw [hzero, List.take_zero]⟩
  rw [if_neg hzero] at hfinds ⊢
  by_cases hskip : skipsLines articLineSize (breakupRead articLineSize maxBreakupSize offset length) = true
  · rw [if_pos hskip] at hfinds ⊢
    by_cases hbig : length < bigCacheSkip
    · rw [if_pos hbig] at hfinds ⊢
      exact readEntry_transparent (by decide) h.bigPlaced h.big s.requests hfinds
    rw [if_neg hbig] at hfinds ⊢
    by_cases hveryBig : length < veryBigCacheSkip
    · rw [if_pos hveryBig] at hfinds ⊢
      exact readEntry_transparent (by decide) h.veryBigPlaced h.veryBig s.requests hfinds
    rw [if_neg hveryBig]
    have hspec := (readFromArtic_spec server s.file length offset s.requests).2
    rcases hresult : readFromArtic server s.file length offset s.requests with ⟨_ | bytes | ⟨readSize, bytes⟩, requests⟩
    · trivial
    · trivial
    · rw [hresult] at hspec
      exact hspec.2
  · rw [if_neg hskip] at hfinds ⊢
    exact readLines_transparent (readFromArtic_fetches server s.file articLineSize) lineCount_pos h.lines
      (contents_follows s.file (offset + length + 1)) (Nat.lt_succ_self _)
      (breakupRead_covers (by decide) (by decide) (by decide) hfinds.1 hskip) hfinds.2

end ArticCache

end SweepDSEmu.FileSys.ReadCache
