import SweepDSEmu.Lib.StaticLRUCache
import Mathlib.Data.Vector.Basic

/-!
# Reads through lines of a cache

The part of `ArticCache::Read` and `DirectRomFSReader::ReadFile` that reads page by page.  A page that is not in the
cache is fetched; the fetch can fail or return less than was asked, and the answers to the requests that it makes are
given from outside.

* A line is in the cache before it is fetched, and the next read takes it for full.  `filled` is what the fetch
  returned, which the code does not keep.
* Reads that stay inside what was fetched return the bytes of the file: `readLines_transparent`.
-/

namespace SweepDSEmu.FileSys.ReadCache

abbrev Bytes := List UInt8

structure File where
  bytes : Bytes
  size_lt : bytes.length < 2 ^ 64

inductive Answer where
  | failed
  | short (n : Nat)
  | full
  deriving DecidableEq

def Answer.bytes (file : File) (offset length : Nat) : Answer → Option Bytes
  | failed => none
  | short n => some ((file.bytes.drop offset).take (min n length))
  | full => some ((file.bytes.drop offset).take length)

theorem take_length_of_eq_take {l x : Bytes} {n : Nat} (h : x = l.take n) : x = l.take x.length ∧ x.length ≤ n := by
  subst h
  refine ⟨?_, List.length_take_le _ _⟩
  rw [List.length_take, List.take_eq_take_iff]
  omega

theorem bytes_of_answer {file : File} {offset : Nat} {answer : Answer} {length : Nat} {read : Bytes}
    (h : answer.bytes file offset length = some read) :
    read = (file.bytes.drop offset).take read.length ∧ read.length ≤ length ∧
      (answer = .full → read = (file.bytes.drop offset).take length) := by
  cases answer with
  | failed => cases h
  | short n =>
    cases h
    obtain ⟨hbegin, hle⟩ := take_length_of_eq_take (rfl : (file.bytes.drop offset).take (min n length) = _)
    refine ⟨hbegin, by omega, ?_⟩
    intro hfull
    cases hfull
  | full =>
    cases h
    obtain ⟨hbegin, hle⟩ := take_length_of_eq_take (rfl : (file.bytes.drop offset).take length = _)
    exact ⟨hbegin, hle, fun _ => rfl⟩

/-- What a fetch returns: nothing ever, an error with the bytes that came before it, or a size with the bytes. -/
inductive Fetched where
  | aborts
  | failed (bytes : Bytes)
  | got (readSize : Nat) (bytes : Bytes)
  deriving DecidableEq

inductive ReadResult where
  | aborts
  | failed
  | success (bytes : Bytes)
  deriving DecidableEq

def File.contents (file : File) (offset : Nat) : Bytes := file.bytes.drop offset

def offsetToPage (lineSize offset : Nat) : Nat := offset - offset % lineSize

def breakupLoop (lineSize : Nat) : Nat → Nat → Nat → List (Nat × Nat)
  | 0, _, _ => []
  | fuel + 1, currOffset, length =>
    if length = 0 then []
    else
      let nextPage := offsetToPage lineSize ((currOffset + lineSize) % 2 ^ 64)
      let currPageLen := min length ((nextPage + 2 ^ 64 - currOffset) % 2 ^ 64)
      (currOffset, currPageLen) :: breakupLoop lineSize fuel nextPage (length - currPageLen)

def breakupRead (lineSize maxBreakupSize offset length : Nat) : List (Nat × Nat) :=
  if maxBreakupSize < length then [(offset, length)] else breakupLoop lineSize length offset length

def skipsLines (lineSize : Nat) (segments : List (Nat × Nat)) : Bool :=
  match segments with
  | [seg] => decide (lineSize < seg.2)
  | _ => false

/-- A line of the cache, and how many bytes the fetch into it returned. -/
structure Line (lineSize : Nat) where
  data : Vector UInt8 lineSize
  filled : Nat

def Line.fill {lineSize : Nat} (line : Line lineSize) (bytes : Bytes) : Line lineSize where
  data := Vector.ofFn fun i => if h : i < bytes.length then bytes[i] else line.data[i]
  filled := bytes.length

structure Lines (lineSize : Nat) where
  cache : StaticLRUCache Nat (Line lineSize)
  requests : Nat := 0

def Line.copyOut {lineSize : Nat} (line : Line lineSize) (into length readSize : Nat) : Bytes :=
  let copyAmount := if into < readSize then min (into + length) readSize - into else 0
  (line.data.toList.drop into).take copyAmount

variable {lineSize : Nat}

def readLine (lineCount : Nat) (fetch : Nat → Nat → Fetched × Nat) (s : Lines lineSize) (seg : Nat × Nat) :
    ReadResult × Lines lineSize :=
  let page := offsetToPage lineSize seg.1
  match s.cache.request lineCount page with
  | (true, i, cache) => (.success ((cache.array i).copyOut (seg.1 - page) seg.2 lineSize), { s with cache })
  | (false, i, cache) =>
    match fetch page s.requests with
    | (.aborts, _) => (.aborts, s)
    | (.failed bytes, requests) => (.failed, { cache := cache.set i ((cache.array i).fill bytes), requests })
    | (.got readSize bytes, requests) =>
      let line := (cache.array i).fill bytes
      (.success (line.copyOut (seg.1 - page) seg.2 readSize), { cache := cache.set i line, requests })

def readLines (lineCount : Nat) (fetch : Nat → Nat → Fetched × Nat) :
    Lines lineSize → List (Nat × Nat) → ReadResult × Lines lineSize
  | s, [] => (.success [], s)
  | s, seg :: segs =>
    match readLine lineCount fetch s seg with
    | (.success bytes, s) =>
      match readLines lineCount fetch s segs with
      | (.success rest, s) => (.success (bytes ++ rest), s)
      | (.failed, s) => (.failed, s)
      | (.aborts, s) => (.aborts, s)
    | (.failed, s) => (.failed, s)
    | (.aborts, s) => (.aborts, s)

def Follows (contents : Nat → Bytes) (limit : Nat) : Prop :=
  ∀ offset n, offset + n < limit → (contents offset).drop n = contents (offset + n)

def AnsweredInFull (answers : Nat → Answer) (first last : Nat) : Prop :=
  ∀ i, first ≤ i → i < last → answers i = .full

structure Fetches (contents : Nat → Bytes) (lineSize : Nat) (answers : Nat → Answer)
    (fetch : Nat → Nat → Fetched × Nat) : Prop where
  later : ∀ page requests, requests ≤ (fetch page requests).2
  failed : ∀ page requests bytes, (fetch page requests).1 = .failed bytes →
    bytes = (contents page).take bytes.length ∧ bytes.length ≤ lineSize
  got : ∀ page requests readSize bytes, (fetch page requests).1 = .got readSize bytes →
    bytes = (contents page).take bytes.length ∧ bytes.length ≤ lineSize
  full : ∀ page requests readSize bytes, (fetch page requests).1 = .got readSize bytes →
    AnsweredInFull answers requests (fetch page requests).2 → bytes = (contents page).take lineSize

structure Belongs (contents : Nat → Bytes) (page : Nat) (line : Line lineSize) : Prop where
  filled_le : line.filled ≤ lineSize
  data : line.data.toList.take line.filled = (contents page).take line.filled

/-- The lines hold what was fetched from a file. -/
structure Sound (contents : Nat → Bytes) (s : Lines lineSize) : Prop where
  placed : s.cache.Placed
  lines : s.cache.All (Belongs contents)

def FilledFor (lineCount : Nat) (fetch : Nat → Nat → Fetched × Nat) (s : Lines lineSize) (seg : Nat × Nat) : Prop :=
  let page := offsetToPage lineSize seg.1
  match s.cache.request lineCount page with
  | (true, i, cache) => seg.1 - page + seg.2 ≤ (cache.array i).filled
  | (false, _, _) => ∀ readSize bytes, (fetch page s.requests).1 = .got readSize bytes → readSize = bytes.length

def FetchedWhole (contents : Nat → Bytes) (lineCount : Nat) (fetch : Nat → Nat → Fetched × Nat) (s : Lines lineSize)
    (seg : Nat × Nat) : Prop :=
  let page := offsetToPage lineSize seg.1
  (s.cache.request lineCount page).1 = true ∨
    ∀ readSize bytes, (fetch page s.requests).1 = .got readSize bytes → bytes = (contents page).take lineSize

/-- Every segment of a read stays inside what was fetched, and no line is short before another one. -/
def ReadsFilled (contents : Nat → Bytes) (lineCount : Nat) (fetch : Nat → Nat → Fetched × Nat) :
    Lines lineSize → List (Nat × Nat) → Prop
  | _, [] => True
  | s, seg :: segs =>
    FilledFor lineCount fetch s seg ∧ (segs = [] ∨ FetchedWhole contents lineCount fetch s seg) ∧
      ∀ bytes s', readLine lineCount fetch s seg = (.success bytes, s') → ReadsFilled contents lineCount fetch s' segs

/-- What a read that succeeds must return: bytes of the file from the offset on, and all it has when every request was
answered in full. -/
def Transparent (contents : Nat → Bytes) (offset length : Nat) (full : Prop) : ReadResult → Prop
  | .success bytes =>
    bytes = (contents offset).take bytes.length ∧ bytes.length ≤ length ∧
      (full → bytes = (contents offset).take length)
  | .failed => True
  | .aborts => True

theorem contents_follows (file : File) (limit : Nat) : Follows file.contents limit := by
  intro offset n _
  exact List.drop_drop

theorem toList_fill {line : Line lineSize} {bytes : Bytes} (h : bytes.length ≤ lineSize) :
    (line.fill bytes).data.toList.take bytes.length = bytes := by
  apply List.ext_getElem
  · simp [h]
  · intro i hi hi'
    simp only [Line.fill, List.getElem_take, Vector.getElem_toList, Vector.getElem_ofFn]
    rw [dif_pos hi']
    rfl

private theorem part_of_line {data bytes : Bytes} {filled into amount : Nat} (h : data.take filled = bytes.take filled)
    (hle : into + amount ≤ filled) : (data.drop into).take amount = (bytes.drop into).take amount := by
  have hpart (l : Bytes) : ((l.take filled).drop into).take amount = (l.drop into).take amount := by
    rw [List.drop_take, List.take_take, Nat.min_eq_left (by omega)]
  rw [← hpart data, h, hpart]

theorem belongs_fill {contents : Nat → Bytes} {page : Nat} (line : Line lineSize) {bytes : Bytes}
    (h : bytes = (contents page).take bytes.length) (hle : bytes.length ≤ lineSize) :
    Belongs contents page (line.fill bytes) where
  filled_le := hle
  data := (toList_fill hle).trans h

section Line

variable {contents : Nat → Bytes} {answers : Nat → Answer} {fetch : Nat → Nat → Fetched × Nat} {lineCount limit : Nat}
  {s s' : Lines lineSize} {seg : Nat × Nat} {bytes : Bytes}

theorem readLine_sound (hfetch : Fetches contents lineSize answers fetch) (hcount : 0 < lineCount)
    (h : Sound contents s) (seg : Nat × Nat) :
    Sound contents (readLine lineCount fetch s seg).2 ∧ s.requests ≤ (readLine lineCount fetch s seg).2.requests := by
  unfold readLine
  dsimp only
  rcases StaticLRUCache.request_all hcount h.placed h.lines (offsetToPage lineSize seg.1) with
    ⟨i, cache, hrequest, -, hall, hplaced⟩ | ⟨i, cache, hrequest, hfill⟩
  · rw [hrequest]
    exact ⟨⟨hplaced, hall⟩, le_rfl⟩
  · rw [hrequest]
    have hlater := hfetch.later (offsetToPage lineSize seg.1) s.requests
    rcases hresult : fetch (offsetToPage lineSize seg.1) s.requests with ⟨_ | bytes | ⟨readSize, bytes⟩, requests⟩
    · exact ⟨h, le_rfl⟩
    · obtain ⟨hbytes, hle⟩ := hfetch.failed _ _ bytes (congrArg Prod.fst hresult)
      obtain ⟨hall, hplaced⟩ := hfill _ (belongs_fill _ hbytes hle)
      rw [hresult] at hlater
      exact ⟨⟨hplaced, hall⟩, hlater⟩
    · obtain ⟨hbytes, hle⟩ := hfetch.got _ _ readSize bytes (congrArg Prod.fst hresult)
      obtain ⟨hall, hplaced⟩ := hfill _ (belongs_fill _ hbytes hle)
      rw [hresult] at hlater
      exact ⟨⟨hplaced, hall⟩, hlater⟩

private theorem offset_sub_page (lineSize offset : Nat) :
    offset - offsetToPage lineSize offset = offset % lineSize := by
  rw [offsetToPage, Nat.sub_sub_self (Nat.mod_le _ _)]

private theorem page_add_mod (lineSize offset : Nat) : offsetToPage lineSize offset + offset % lineSize = offset := by
  rw [offsetToPage, Nat.sub_add_cancel (Nat.mod_le _ _)]

theorem copyOut_of_belongs {line : Line lineSize} {offset : Nat} (length readSize : Nat)
    (hfollows : Follows contents limit) (hoffset : offset < limit)
    (hline : Belongs contents (offsetToPage lineSize offset) line)
    (hfilled : offset % lineSize + min length (readSize - offset % lineSize) ≤ line.filled ∨ readSize ≤ line.filled) :
    line.copyOut (offset - offsetToPage lineSize offset) length readSize =
      (contents offset).take (min length (readSize - offset % lineSize)) := by
  have hamount : (if offset % lineSize < readSize then min (offset % lineSize + length) readSize - offset % lineSize
      else 0) = min length (readSize - offset % lineSize) := by
    split <;> omega
  rw [Line.copyOut, offset_sub_page, hamount]
  by_cases hempty : min length (readSize - offset % lineSize) = 0
  · rw [hempty, List.take_zero, List.take_zero]
  · rw [part_of_line hline.data (by omega), hfollows _ _ (by rwa [page_add_mod]), page_add_mod]

/-- A segment of a page that is read inside what was fetched returns bytes of the file. -/
theorem readLine_transparent (hfetch : Fetches contents lineSize answers fetch) (hcount : 0 < lineCount)
    (h : Sound contents s) (hfollows : Follows contents limit) (hoffset : seg.1 < limit)
    (hpage : seg.1 % lineSize + seg.2 ≤ lineSize)
    (hfilled : FilledFor lineCount fetch s seg)
    (hread : readLine lineCount fetch s seg = (.success bytes, s')) :
    (bytes = (contents seg.1).take bytes.length ∧ bytes.length ≤ seg.2) ∧
    (FetchedWhole contents lineCount fetch s seg → bytes = (contents seg.1).take seg.2) ∧
    (AnsweredInFull answers s.requests s'.requests → FetchedWhole contents lineCount fetch s seg) := by
  unfold FetchedWhole
  unfold FilledFor at hfilled
  unfold readLine at hread
  dsimp only at hread hfilled ⊢
  rcases StaticLRUCache.request_all hcount h.placed h.lines (offsetToPage lineSize seg.1) with
    ⟨i, cache, hrequest, hline, -, -⟩ | ⟨i, cache, hrequest, -⟩
  · rw [hrequest] at hread hfilled ⊢
    obtain ⟨hbytes, -⟩ := Prod.mk.inj hread
    rw [offset_sub_page] at hfilled
    have hwhole : min seg.2 (lineSize - seg.1 % lineSize) = seg.2 := by omega
    have hcopied := copyOut_of_belongs seg.2 lineSize hfollows hoffset hline (.inl (by omega))
    rw [ReadResult.success.inj hbytes, hwhole] at hcopied
    exact ⟨take_length_of_eq_take hcopied, fun _ => hcopied, fun _ => .inl rfl⟩
  · rw [hrequest] at hread hfilled ⊢
    rcases hresult : fetch (offsetToPage lineSize seg.1) s.requests with ⟨_ | fetched | ⟨readSize, fetched⟩, requests⟩
    · rw [hresult] at hread
      cases hread
    · rw [hresult] at hread
      cases hread
    · have hgot := congrArg Prod.fst hresult
      obtain ⟨hfetched, hle⟩ := hfetch.got _ _ readSize fetched hgot
      have hsize := hfilled readSize fetched hgot
      rw [hresult] at hread
      obtain ⟨hbytes, hs'⟩ := Prod.mk.inj hread
      have hline := belongs_fill (cache.array i) hfetched hle
      have hcopied := copyOut_of_belongs seg.2 readSize hfollows hoffset hline (.inr hsize.le)
      rw [ReadResult.success.inj hbytes] at hcopied
      obtain ⟨hbegin, hshort⟩ := take_length_of_eq_take hcopied
      refine ⟨⟨hbegin, by omega⟩, ?_, ?_⟩
      · rintro (hhit | hwhole)
        · cases hhit
        · have hlength := congrArg List.length (hwhole readSize fetched rfl)
          rw [List.length_take] at hlength
          have hrest := hfollows (offsetToPage lineSize seg.1) (seg.1 % lineSize) (by rwa [page_add_mod])
          rw [page_add_mod] at hrest
          rw [hcopied, List.take_eq_take_iff, ← hrest, List.length_drop]
          omega
      · intro hfull
        right
        intro readSize' fetched' hgot'
        cases hgot'
        rw [← hs'] at hfull
        exact hfetch.full _ _ readSize fetched hgot (by rwa [hresult])

end Line

/-- Segments of pages that cover a range from its beginning to its end. -/
def Covers (lineSize : Nat) : Nat → Nat → List (Nat × Nat) → Prop
  | _, length, [] => length = 0
  | offset, length, seg :: segs =>
    seg.1 = offset ∧ seg.2 ≤ length ∧ offset % lineSize + seg.2 ≤ lineSize ∧
      Covers lineSize (offset + seg.2) (length - seg.2) segs

private theorem nextPage_eq (hdvd : lineSize ∣ 2 ^ 64) (hlt : lineSize < 2 ^ 64) {offset : Nat}
    (hoffset : offset < 2 ^ 64) :
    (offsetToPage lineSize ((offset + lineSize) % 2 ^ 64) + 2 ^ 64 - offset) % 2 ^ 64 = lineSize - offset % lineSize ∧
    (offset + (lineSize - offset % lineSize) < 2 ^ 64 →
      offsetToPage lineSize ((offset + lineSize) % 2 ^ 64) = offset + (lineSize - offset % lineSize)) := by
  have hpos : 0 < lineSize := Nat.pos_of_dvd_of_pos hdvd (by decide)
  have hmod : offset % lineSize < lineSize := Nat.mod_lt _ hpos
  have hle : offset % lineSize ≤ offset := Nat.mod_le _ _
  by_cases hwrap : offset + lineSize < 2 ^ 64
  · rw [Nat.mod_eq_of_lt hwrap, offsetToPage, Nat.add_mod_right]
    constructor
    · rw [show offset + lineSize - offset % lineSize + 2 ^ 64 - offset = lineSize - offset % lineSize + 2 ^ 64 by omega,
        Nat.add_mod_right, Nat.mod_eq_of_lt (by omega)]
    · omega
  · -- the last page ends where the offsets do
    obtain ⟨q, hq⟩ := hdvd
    have hpages : lineSize * (q - 1) + lineSize = 2 ^ 64 := by
      rw [← Nat.mul_succ, Nat.succ_eq_add_one, Nat.sub_add_cancel, ← hq]
      by_contra hzero
      rw [show q = 0 by omega, Nat.mul_zero] at hq
      omega
    have hrest : offset % lineSize = offset + lineSize - 2 ^ 64 := by
      have hsplit : offset = offset + lineSize - 2 ^ 64 + lineSize * (q - 1) := by omega
      conv_lhs => rw [hsplit]
      rw [Nat.add_mul_mod_self_left, Nat.mod_eq_of_lt (by omega)]
    have hzero : offsetToPage lineSize ((offset + lineSize) % 2 ^ 64) = 0 := by
      rw [show offset + lineSize = offset + lineSize - 2 ^ 64 + 2 ^ 64 by omega, Nat.add_mod_right,
        Nat.mod_eq_of_lt (by omega), offsetToPage, Nat.mod_eq_of_lt (by omega), Nat.sub_self]
    rw [hzero]
    constructor
    · omega
    · omega

theorem breakupLoop_covers (hdvd : lineSize ∣ 2 ^ 64) (hlt : lineSize < 2 ^ 64) (fuel offset length : Nat)
    (hfuel : length ≤ fuel) (hend : offset + length ≤ 2 ^ 64) :
    Covers lineSize offset length (breakupLoop lineSize fuel offset length) := by
  induction fuel generalizing offset length with
  | zero =>
    rw [breakupLoop, Covers]
    omega
  | succ fuel ih =>
    rw [breakupLoop]
    split
    case isTrue hzero => exact hzero
    case isFalse hpos =>
      have hmod : offset % lineSize < lineSize := Nat.mod_lt _ (Nat.pos_of_dvd_of_pos hdvd (by decide))
      obtain ⟨hdistance, hnext⟩ := nextPage_eq hdvd hlt (by omega : offset < 2 ^ 64)
      dsimp only
      rw [hdistance]
      refine ⟨rfl, Nat.min_le_left _ _, by dsimp only; omega, ?_⟩
      by_cases hmore : lineSize - offset % lineSize < length
      · rw [Nat.min_eq_right hmore.le, hnext (by omega)]
        exact ih _ _ (by omega) (by omega)
      · rw [Nat.min_eq_left (by omega), Nat.sub_self]
        cases fuel with
        | zero => exact rfl
        | succ fuel =>
          exact rfl

theorem breakupRead_covers (hdvd : lineSize ∣ 2 ^ 64) (hlt : lineSize < 2 ^ 64) {maxBreakupSize offset length : Nat}
    (hmax : lineSize ≤ maxBreakupSize) (hend : offset + length ≤ 2 ^ 64)
    (hlines : ¬ skipsLines lineSize (breakupRead lineSize maxBreakupSize offset length) = true) :
    Covers lineSize offset length (breakupRead lineSize maxBreakupSize offset length) := by
  have hshort : ¬ maxBreakupSize < length := by
    intro hlong
    rw [breakupRead, if_pos hlong, skipsLines, decide_eq_true_eq] at hlines
    exact hlines (hmax.trans_lt hlong)
  rw [breakupRead, if_neg hshort]
  exact breakupLoop_covers hdvd hlt length offset length le_rfl hend

section Reads

variable {contents : Nat → Bytes} {answers : Nat → Answer} {fetch : Nat → Nat → Fetched × Nat} {lineCount limit : Nat}
  {s s' : Lines lineSize} {segs : List (Nat × Nat)} {bytes : Bytes}

theorem readLines_sound (hfetch : Fetches contents lineSize answers fetch) (hcount : 0 < lineCount)
    (h : Sound contents s) (segs : List (Nat × Nat)) :
    Sound contents (readLines lineCount fetch s segs).2 ∧
    s.requests ≤ (readLines lineCount fetch s segs).2.requests := by
  induction segs generalizing s with
  | nil => exact ⟨h, le_rfl⟩
  | cons seg segs ih =>
    obtain ⟨hline, hlater⟩ := readLine_sound hfetch hcount h seg
    rw [readLines]
    rcases hread : readLine lineCount fetch s seg with ⟨_ | _ | bytes, s₁⟩
    · rw [hread] at hline hlater
      exact ⟨hline, hlater⟩
    · rw [hread] at hline hlater
      exact ⟨hline, hlater⟩
    · rw [hread] at hline hlater
      obtain ⟨hlines, hlater'⟩ := ih hline
      dsimp only at hlater ⊢
      rcases hrest : readLines lineCount fetch s₁ segs with ⟨_ | _ | rest, s₂⟩
      all_goals
        rw [hrest] at hlines hlater'
        exact ⟨hlines, hlater.trans hlater'⟩

theorem readLines_transparent (hfetch : Fetches contents lineSize answers fetch) (hcount : 0 < lineCount)
    (h : Sound contents s) {offset length : Nat} (hfollows : Follows contents limit) (hend : offset + length < limit)
    (hcovers : Covers lineSize offset length segs)
    (hfilled : ReadsFilled contents lineCount fetch s segs) :
    Transparent contents offset length (AnsweredInFull answers s.requests (readLines lineCount fetch s segs).2.requests)
      (readLines lineCount fetch s segs).1 := by
  induction segs generalizing s offset length with
  | nil =>
    have hlength : length = 0 := hcovers
    refine ⟨by simp, by simp, ?_⟩
    intro _
    rw [hlength, List.take_zero]
  | cons seg segs ih =>
    obtain ⟨rfl, hle, hpage, hrestCovers⟩ := hcovers
    obtain ⟨hfilledLine, hwhole, hrestFilled⟩ := hfilled
    obtain ⟨hline, hlater⟩ := readLine_sound hfetch hcount h seg
    rw [readLines]
    rcases hread : readLine lineCount fetch s seg with ⟨_ | _ | bytes, s₁⟩
    · trivial
    · trivial
    rw [hread] at hline hlater
    obtain ⟨⟨hbytes, hshort⟩, hfull, hanswered⟩ :=
      readLine_transparent hfetch hcount h hfollows (by omega) hpage hfilledLine hread
    have htail := ih hline (by omega) hrestCovers (hrestFilled bytes s₁ hread)
    have hlater' := (readLines_sound hfetch hcount hline segs).2
    dsimp only at hlater ⊢
    rcases hrest : readLines lineCount fetch s₁ segs with ⟨_ | _ | rest, s₂⟩
    · trivial
    · trivial
    rw [hrest] at htail hlater'
    obtain ⟨hrestBytes, hrestShort, hrestFull⟩ := htail
    dsimp only at hlater' hrestFull ⊢
    have hfirst : AnsweredInFull answers s.requests s₂.requests → bytes = (contents seg.1).take seg.2 := by
      intro hall
      exact hfull (hanswered fun i hi hi' => hall i hi (by omega))
    have hjoin (n : Nat) : (contents seg.1).take seg.2 ++ (contents (seg.1 + seg.2)).take n =
        (contents seg.1).take (seg.2 + n) := by
      rw [List.take_add, hfollows _ _ (by omega)]
    have hbegin : bytes ++ rest = (contents seg.1).take (bytes ++ rest).length := by
      rcases hwhole with rfl | hwhole
      · cases hrest
        simpa using hbytes
      · have hboth : bytes ++ rest = (contents seg.1).take (seg.2 + rest.length) := by
          rw [← hjoin, ← hrestBytes, ← hfull hwhole]
        exact (take_length_of_eq_take hboth).1
    refine ⟨hbegin, ?_, ?_⟩
    · rw [List.length_append]
      omega
    · intro hall
      rw [hrestFull fun i hi hi' => hall i (by omega) hi', hfirst hall, hjoin, Nat.add_sub_cancel' hle]

end Reads

end SweepDSEmu.FileSys.ReadCache
