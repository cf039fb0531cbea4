import Mathlib.Data.Char
import Mathlib.Data.List.Lex
import SweepDSEmu.Lib.OrderedMap
import SweepDSEmu.Lib.SplitString

/-!
# Param packages

`Common::ParamPackage`: a map from strings to strings is written as `key:value` pairs with commas between them, where
the separators and the escape character are escaped in the keys and the values.

The parts come back from the escaped ones, in which no separator is left (`unescape_escape`), and the pairs from a split
at the commas.  A pair with an empty value does not: there is nothing behind its colon, and the splitter drops an empty
piece at the end.
-/

namespace SweepDSEmu.ParamPackage

/-- A `std::string`, by its characters. -/
abbrev Str := List Char

/-- The loop of `ReplaceAll`, with `skip` characters left of an occurrence of `src`. -/
def replaceLoop (src dest : Str) : Nat → Str → Str
  | _, [] => []
  | skip + 1, _ :: s => replaceLoop src dest skip s
  | 0, c :: s =>
    if src.isPrefixOf (c :: s) then dest ++ replaceLoop src dest (src.length - 1) s
    else c :: replaceLoop src dest 0 s

def replaceAll (result src dest : Str) : Str := if src = dest then result else replaceLoop src dest 0 result

def escape (part : Str) : Str :=
  let part := replaceAll part ['$'] ['$', '2']
  let part := replaceAll part [','] ['$', '1']
  replaceAll part [':'] ['$', '0']

def unescape (part : Str) : Str :=
  let part := replaceAll part ['$', '0'] [':']
  let part := replaceAll part ['$', '1'] [',']
  replaceAll part ['$', '2'] ['$']

def emptyPlaceholder : Str := ['[', 'e', 'm', 'p', 't', 'y', ']']

def serialize (data : OrderedMap Str Str) : Str :=
  if data.isEmpty then emptyPlaceholder
  else (data.flatMap fun pair => escape pair.1 ++ ':' :: escape pair.2 ++ [',']).dropLast

/-- `std::map::insert_or_assign` -/
def set (data : OrderedMap Str Str) (key value : Str) : OrderedMap Str Str :=
  if data.any fun p => p.1 = key then data.modify key fun _ => value else data.emplace key value

def setPair (data : OrderedMap Str Str) (pair : Str) : OrderedMap Str Str :=
  match splitString ':' pair with
  | [key, value] => set data (unescape key) (unescape value)
  | _ => data

def ofSerialized (serialized : Str) : OrderedMap Str Str :=
  if serialized = emptyPlaceholder then [] else (splitString ',' serialized).foldl setPair []

/-- The characters of a string, where some are written as the escape character and a code. -/
def encode (codes : Char → Option Char) (s : Str) : Str :=
  s.flatMap fun c => match codes c with
    | some d => ['$', d]
    | none => [c]

private theorem encode_cons (codes : Char → Option Char) (c : Char) (s : Str) :
    encode codes (c :: s) = (match codes c with | some d => ['$', d] | none => [c]) ++ encode codes s := List.flatMap_cons

private theorem encode_none (s : Str) : encode (fun _ => none) s = s := by
  induction s with
  | nil => rfl
  | cons c s ih => rw [encode_cons, ih]; rfl

variable {codes : Char → Option Char} {data : OrderedMap Str Str}

private theorem replaceAll_encode {c₀ d : Char} (hnone : codes c₀ = none)
    (hfresh : ∀ c x, codes c = some x → '$' ≠ c₀ ∧ x ≠ c₀) (s : Str) :
    replaceAll (encode codes s) [c₀] ['$', d] = encode (Function.update codes c₀ (some d)) s := by
  rw [replaceAll, if_neg (by simp)]
  induction s with
  | nil => rfl
  | cons c s ih =>
    rw [encode_cons, encode_cons, ← ih]
    by_cases hc : c = c₀
    · subst hc
      simp [hnone, replaceLoop]
    · cases hcode : codes c with
      | none => simp [hcode, hc, Ne.symm hc, replaceLoop]
      | some x =>
        obtain ⟨hescape, hx⟩ := hfresh c x hcode
        simp [hcode, hc, Ne.symm hx, Ne.symm hescape, replaceLoop]

private theorem replaceAll_decode {c₀ d : Char} (hsome : codes c₀ = some d)
    (hescape : codes '$' ≠ none) (hcodes : ∀ c x, codes c = some x → x ≠ '$' ∧ (x = d → c = c₀)) (s : Str) :
    replaceAll (encode codes s) ['$', d] [c₀] = encode (Function.update codes c₀ none) s := by
  rw [replaceAll, if_neg (by simp)]
  induction s with
  | nil => rfl
  | cons c s ih =>
    rw [encode_cons, encode_cons, ← ih]
    by_cases hc : c = c₀
    · subst hc
      simp [hsome, replaceLoop]
    · cases hcode : codes c with
      | none =>
        have hne : c ≠ '$' := fun h => hescape (h ▸ hcode)
        simp [hcode, hc, Ne.symm hne, replaceLoop]
      | some x =>
        obtain ⟨hx, hunique⟩ := hcodes c x hcode
        have hd : d ≠ x := fun h => hc (hunique h.symm)
        simp [hcode, hc, hd, Ne.symm hx, replaceLoop]

def code (c : Char) : Option Char :=
  if c = ':' then some '0' else if c = ',' then some '1' else if c = '$' then some '2' else none

private theorem code_some {c x : Char} (h : code c = some x) :
    (c = ':' ∧ x = '0') ∨ (c = ',' ∧ x = '1') ∨ (c = '$' ∧ x = '2') := by
  unfold code at h
  split_ifs at h with h₁ h₂ h₃
  · exact .inl ⟨h₁, (Option.some.inj h).symm⟩
  · exact .inr (.inl ⟨h₂, (Option.some.inj h).symm⟩)
  · exact .inr (.inr ⟨h₃, (Option.some.inj h).symm⟩)

private theorem update_some {c₀ c x : Char} {d : Option Char}
    (h : Function.update codes c₀ d c = some x) : (c = c₀ ∧ d = some x) ∨ (c ≠ c₀ ∧ codes c = some x) := by
  by_cases hc : c = c₀
  · subst hc
    rw [Function.update_self] at h
    exact .inl ⟨rfl, h⟩
  · rw [Function.update_of_ne hc] at h
    exact .inr ⟨hc, h⟩

private theorem escape_eq (s : Str) : escape s = encode code s := by
  have hfirst : replaceAll (encode (fun _ => none) s) ['$'] ['$', '2'] =
      encode (Function.update (fun _ => none) '$' (some '2')) s := replaceAll_encode rfl (by simp) s
  rw [encode_none] at hfirst
  unfold escape
  rw [hfirst]
  dsimp only
  rw [replaceAll_encode (by decide), replaceAll_encode (by decide)]
  · congr 1
    funext c
    simp only [Function.update_apply, code]
  · intro c x h
    rcases update_some h with ⟨-, h⟩ | ⟨-, h⟩
    · cases h
      decide
    · rcases update_some h with ⟨-, h⟩ | ⟨-, h⟩
      · cases h
        decide
      · cases h
  · intro c x h
    rcases update_some h with ⟨-, h⟩ | ⟨-, h⟩
    · cases h
      decide
    · cases h

theorem unescape_escape (s : Str) : unescape (escape s) = s := by
  rw [escape_eq]
  unfold unescape
  rw [replaceAll_decode (by decide) (by decide)]
  · dsimp only
    rw [replaceAll_decode (by decide) (by decide), replaceAll_decode (by decide) (by decide)]
    · conv_rhs => rw [← encode_none s]
      congr 1
      funext c
      simp only [Function.update_apply, code]
      split_ifs <;> rfl
    · intro c x h
      obtain ⟨-, h⟩ := (update_some h).resolve_left nofun
      obtain ⟨-, h⟩ := (update_some h).resolve_left nofun
      rcases code_some h with ⟨rfl, rfl⟩ | ⟨rfl, rfl⟩ | ⟨rfl, rfl⟩ <;> decide
    · intro c x h
      obtain ⟨-, h⟩ := (update_some h).resolve_left nofun
      rcases code_some h with ⟨rfl, rfl⟩ | ⟨rfl, rfl⟩ | ⟨rfl, rfl⟩ <;> decide
  · intro c x h
    rcases code_some h with ⟨rfl, rfl⟩ | ⟨rfl, rfl⟩ | ⟨rfl, rfl⟩ <;> decide

private theorem notMem_escape {c : Char} (hc : c = ':' ∨ c = ',') (s : Str) : c ∉ escape s := by
  rw [escape_eq, encode, List.mem_flatMap]
  rintro ⟨c', -, hmem⟩
  cases hcode : code c' with
  | none =>
    rw [hcode, List.mem_singleton] at hmem
    rcases hc with rfl | rfl <;> exact absurd (hmem ▸ hcode) (by decide)
  | some x =>
    rw [hcode, List.mem_cons, List.mem_singleton] at hmem
    rcases code_some hcode with ⟨-, rfl⟩ | ⟨-, rfl⟩ | ⟨-, rfl⟩ <;> rcases hc with rfl | rfl <;> revert hmem <;> decide

private theorem escape_eq_nil {s : Str} : escape s = [] ↔ s = [] := by
  constructor
  · intro h
    rw [← unescape_escape s, h]
    rfl
  · rintro rfl
    rfl

/-- Pieces that are not empty come back from a string in which each is followed by a delimiter, but for the last. -/
private theorem splitString_flatMap {delim : Char} {pieces : List Str}
    (hpieces : ∀ piece ∈ pieces, delim ∉ piece ∧ piece ≠ []) :
    splitString delim (pieces.flatMap fun piece => piece ++ [delim]).dropLast = pieces := by
  induction pieces with
  | nil => rfl
  | cons piece pieces ih =>
    obtain ⟨hmem, hne⟩ := hpieces piece List.mem_cons_self
    cases pieces with
    | nil => simp [splitString_of_notMem hmem hne]
    | cons next pieces =>
      have hrest := ih fun p hp => hpieces p (List.mem_cons_of_mem _ hp)
      rw [List.flatMap_cons, List.dropLast_append_of_ne_nil (by simp), List.append_assoc, List.singleton_append,
        splitString_piece hmem, hrest]

private def written (pair : Str × Str) : Str := escape pair.1 ++ ':' :: escape pair.2

private theorem serialize_eq (hne : data ≠ []) :
    serialize data = ((data.map written).flatMap fun piece => piece ++ [',']).dropLast := by
  rw [serialize, if_neg (by simpa using hne), List.flatMap_map]
  rfl

private theorem setPair_written (data : OrderedMap Str Str) (pair : Str × Str) :
    setPair data (written pair) = if pair.2 = [] then data else set data pair.1 pair.2 := by
  rw [setPair, written, splitString_piece (notMem_escape (.inl rfl) pair.1)]
  by_cases hvalue : pair.2 = []
  · rw [if_pos hvalue, escape_eq_nil.mpr hvalue]
    rfl
  · rw [if_neg hvalue, splitString_of_notMem (notMem_escape (.inl rfl) pair.2) (by simpa [escape_eq_nil] using hvalue)]
    dsimp only
    rw [unescape_escape, unescape_escape]

private theorem set_last {key : Str} (hlt : ∀ p ∈ data, p.1 < key) (value : Str) :
    set data key value = data ++ [(key, value)] := by
  have hnew : ¬ (data.any fun p => p.1 = key) = true := by
    simp only [List.any_eq_true, decide_eq_true_eq, not_exists, not_and]
    exact fun p hp => (hlt p hp).ne
  have hemplace : OrderedMap.emplace (data ++ []) key value = data ++ [(key, value)] :=
    OrderedMap.emplace_split hlt (by simp) value
  rw [List.append_nil] at hemplace
  rw [set, if_neg hnew, hemplace]

private theorem foldl_setPair {done rest : OrderedMap Str Str} (h : (done ++ rest).Pairwise fun a b => a.1 < b.1) :
    (rest.map written).foldl setPair done = done ++ rest.filter fun e => e.2 ≠ [] := by
  induction rest generalizing done with
  | nil => simp
  | cons pair rest ih =>
    have hlt : ∀ p ∈ done, p.1 < pair.1 := fun p hp =>
      (List.pairwise_append.mp h).2.2 p hp pair List.mem_cons_self
    rw [List.map_cons, List.foldl_cons, setPair_written]
    by_cases hvalue : pair.2 = []
    · rw [if_pos hvalue, List.filter_cons_of_neg (by simpa using hvalue)]
      exact ih (h.sublist ((List.sublist_cons_self pair rest).append_left done))
    · rw [if_neg hvalue, set_last hlt, List.filter_cons_of_pos (by simpa using hvalue), ih (by simpa using h)]
      simp

/-- What is read back is the map without its empty values. -/
theorem ofSerialized_serialize (h : data.Sorted) :
    ofSerialized (serialize data) = data.filter fun e => e.2 ≠ [] := by
  by_cases hempty : data = []
  · subst hempty
    rfl
  have hplaceholder : serialize data ≠ emptyPlaceholder := by
    obtain ⟨pair, rest, rfl⟩ := List.exists_cons_of_ne_nil hempty
    intro heq
    have hcolon : ':' ∈ serialize (pair :: rest) := by
      rw [serialize_eq (by simp), List.map_cons, List.flatMap_cons]
      cases rest with
      | nil =>
        rw [List.map_nil, List.flatMap_nil, List.append_nil, List.dropLast_concat]
        simp [written]
      | cons next rest =>
        rw [List.dropLast_append_of_ne_nil (by simp)]
        simp [written]
    rw [heq] at hcolon
    revert hcolon
    decide
  rw [ofSerialized, if_neg hplaceholder, serialize_eq hempty, splitString_flatMap]
  · refine (foldl_setPair ?_).trans (List.nil_append _)
    exact h
  · intro piece hpiece
    obtain ⟨pair, -, rfl⟩ := List.mem_map.mp hpiece
    simp [written, notMem_escape (.inr rfl)]

/-- A map comes back from its serialization when none of its values is empty. -/
theorem ofSerialized_serialize_iff (data : OrderedMap Str Str) (h : data.Sorted) :
    ofSerialized (serialize data) = data ↔ ∀ e ∈ data, e.2 ≠ [] := by
  rw [ofSerialized_serialize h, List.filter_eq_self]
  simp

/-- A value that looks like an escaped colon. -/
theorem ofSerialized_serialize_iff_escape :
    ofSerialized (serialize [(['k'], ['$', '0'])]) = [(['k'], ['$', '0'])] ↔ ∀ e ∈ [(['k'], ['$', '0'])], e.2 ≠ [] :=
  ofSerialized_serialize_iff _ (List.pairwise_singleton ..)

/-- An empty value is lost, with its key. -/
theorem not_ofSerialized_serialize :
    ¬ ∀ data : OrderedMap Str Str, data.Sorted → ofSerialized (serialize data) = data := by
  intro h
  have hlost := h [(['k'], [])] (List.pairwise_singleton ..)
  revert hlost
  decide

end SweepDSEmu.ParamPackage
