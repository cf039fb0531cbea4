import SweepDSEmu.Network.Packet
import SweepDSEmu.Lib.ByteOrder
import SweepDSEmu.Lib.CheckedAccess

/-!
# Writing and reading packets

The operators of `Network::Packet` for booleans, integers, strings, vectors and arrays, nested in any way, on a little-endian
host.

* A read that leaves the data is an error here; no read does, and none moves a packet on which one failed:
  `readAll_settles`.
* The sizes of strings and vectors are written with 32 bits, so the values come back when they are smaller:
  `readAll_between`.
-/

namespace SweepDSEmu.Network

/-- A byte outside the data is read. -/
inductive OutOfBounds where
  | outOfBounds
  deriving DecidableEq

inductive IntType where
  | s8
  | u8
  | s16
  | u16
  | s32
  | u32
  | s64
  | u64
  deriving DecidableEq

def IntType.size : IntType → Nat
  | .s8 | .u8 => 1
  | .s16 | .u16 => 2
  | .s32 | .u32 => 4
  | .s64 | .u64 => 8

/-- The bits of an integer, which signed and unsigned ones share. -/
abbrev IntType.Value (i : IntType) : Type := BitVec (8 * i.size)

inductive Ty where
  | bool
  | int (i : IntType)
  | string
  | vector (t : Ty)
  | array (n : Nat) (t : Ty)
  deriving DecidableEq

@[reducible] def Ty.Value : Ty → Type
  | .bool => Bool
  | .int i => i.Value
  | .string => Bytes
  | .vector t => List t.Value
  | .array n t => { l : List t.Value // l.length = n }

def htons (x : Nat) : Nat := ofLittleEndian (toLittleEndian 2 x).reverse

def htonl (x : Nat) : Nat := ofLittleEndian (toLittleEndian 4 x).reverse

def htonll (x : Nat) : Nat := htonl (x % 2 ^ 32) <<< 32 ||| htonl (x >>> 32)

def ntohs (x : Nat) : Nat := ofLittleEndian (toLittleEndian 2 x).reverse

def ntohl (x : Nat) : Nat := ofLittleEndian (toLittleEndian 4 x).reverse

def ntohll (x : Nat) : Nat := ntohl (x % 2 ^ 32) <<< 32 ||| ntohl (x >>> 32)

namespace IntType

/-- The order in which an integer is written. -/
def hton : IntType → Nat → Nat
  | .s8, x | .u8, x => x
  | .s16, x | .u16, x => htons x
  | .s32, x | .u32, x => htonl x
  | .s64, x | .u64, x => htonll x

def ntoh : IntType → Nat → Nat
  | .s8, x | .u8, x => x
  | .s16, x | .u16, x => ntohs x
  | .s32, x | .u32, x => ntohl x
  | .s64, x | .u64, x => ntohll x

/-- What a read that fails leaves in a variable that held `old`: only the operators for bytes read into it directly. -/
def unread : (i : IntType) → i.Value → i.Value
  | .s8, old | .u8, old => old
  | _, _ => 0

end IntType

namespace Packet

def append (p : Packet) (bytes : Bytes) : Packet := { p with data := p.data ++ bytes }

def endOfPacket (p : Packet) : Bool := decide (p.data.length ≤ p.readPos)

def copyOut (p : Packet) (size : Nat) : Except OutOfBounds (Option Bytes × Packet) :=
  let p := p.checkSize size
  if p.isValid then do
    let bytes ← checkedSlice .outOfBounds p.data p.readPos size
    return (some bytes, { p with readPos := p.readPos + size })
  else .ok (none, p)

def toU32 (n : Nat) : IntType.u32.Value := BitVec.ofNat _ n

def writeInt (i : IntType) (x : i.Value) (p : Packet) : Packet := p.append (toLittleEndian i.size (i.hton x.toNat))

def readInt (i : IntType) (old : i.Value) (p : Packet) : Except OutOfBounds (i.Value × Packet) := do
  match ← p.copyOut i.size with
  | (some bytes, p) => return (BitVec.ofNat _ (i.ntoh (ofLittleEndian bytes)), p)
  | (none, p) => return (i.unread old, p)

def write : (t : Ty) → t.Value → Packet → Packet
  | .bool, b, p => writeInt .u8 (match b with | true => 1 | false => 0) p
  | .int i, x, p => writeInt i x p
  | .string, s, p =>
    let length := toU32 s.length
    let p := writeInt .u32 length p
    if length.toNat > 0 then p.append (s.take length.toNat) else p
  | .vector t, l, p => l.foldl (fun p x => write t x p) (writeInt .u32 (toU32 l.length) p)
  | .array _ t, l, p => l.val.foldl (fun p x => write t x p) p

def readElements {α : Type} (readOne : Packet → Except OutOfBounds (α × Packet)) :
    (n : Nat) → Packet → Except OutOfBounds ({ l : List α // l.length = n } × Packet)
  | 0, p => .ok (⟨[], rfl⟩, p)
  | n + 1, p => do
    let (x, p) ← readOne p
    let (l, p) ← readElements readOne n p
    return (⟨x :: l.val, by simp [l.property]⟩, p)

/-- `operator>>`, into a variable that holds `old`; a new variable may hold anything. -/
def readTy (uninit : (t : Ty) → t.Value) : (t : Ty) → t.Value → Packet → Except OutOfBounds (t.Value × Packet)
  | .bool, old, p => do
    let (value, p) ← readInt .u8 (uninit (.int .u8)) p
    return (if p.isValid then decide (value ≠ 0) else old, p)
  | .int i, old, p => readInt i old p
  | .string, _, p => do
    let (length, p) ← readInt .u32 0 p
    if length.toNat > 0 then
      match ← p.copyOut length.toNat with
      | (some bytes, p) => return (bytes, p)
      | (none, p) => return ([], p)
    else return ([], p)
  | .vector t, _, p => do
    let (size, p) ← readInt .u32 0 p
    let (l, p) ← readElements (fun p => readTy uninit t (uninit t) p) size.toNat p
    return (l.val, p)
  | .array n t, _, p => readElements (fun p => readTy uninit t (uninit t) p) n p

def writeAll (values : List (Σ t : Ty, t.Value)) (p : Packet) : Packet := values.foldl (fun p v => write v.1 v.2 p) p

def readAll (uninit : (t : Ty) → t.Value) : List Ty → Packet → Except OutOfBounds (List (Σ t : Ty, t.Value) × Packet)
  | [], p => .ok ([], p)
  | t :: types, p => do
    let (value, p) ← readTy uninit t (uninit t) p
    let (values, p) ← readAll uninit types p
    return (⟨t, value⟩ :: values, p)

/-- A read of `p` returns, and leaves the packet as it is if a read has failed on it. -/
def Settles {α : Type} (p : Packet) (result : Except OutOfBounds (α × Packet)) : Prop :=
  ∃ a p', result = .ok (a, p') ∧ (p.isValid = false → p' = p)

theorem checkSize_of_invalid {p : Packet} (h : p.isValid = false) (size : Nat) : p.checkSize size = p := by
  cases p
  simp_all [checkSize]

theorem fits_of_checkSize {p : Packet} {size : Nat} (h : (p.checkSize size).isValid = true) :
    p.readPos + size ≤ p.data.length := by
  simp only [checkSize, Bool.and_eq_true, decide_eq_true_eq] at h
  exact h.2

theorem copyOut_eq_read (p : Packet) (size : Nat) : p.copyOut size = .ok (p.read size) := by
  unfold copyOut read
  dsimp only
  split
  case isTrue h =>
    have hfits := fits_of_checkSize h
    rw [checkedSlice_of_le (by exact hfits)]
    rfl
  case isFalse h => rfl

theorem copyOut_settles (p : Packet) (size : Nat) : Settles p (p.copyOut size) := by
  refine ⟨(p.read size).1, (p.read size).2, copyOut_eq_read p size, ?_⟩
  intro h
  unfold read
  rw [checkSize_of_invalid h]
  simp [h]

namespace Settles

variable {α β : Type} {p : Packet} {result : Except OutOfBounds (α × Packet)}

theorem pure (p : Packet) (a : α) : Settles p (.ok (a, p)) := ⟨a, p, rfl, fun _ => rfl⟩

theorem bind {next : α × Packet → Except OutOfBounds (β × Packet)} (h : Settles p result)
    (hnext : ∀ a p', Settles p' (next (a, p'))) : Settles p (result >>= next) := by
  obtain ⟨a, p₁, hread, hp₁⟩ := h
  obtain ⟨b, p₂, hthen, hp₂⟩ := hnext a p₁
  refine ⟨b, p₂, ?_, ?_⟩
  · rw [hread]
    exact hthen
  · intro hinvalid
    have hsame := hp₁ hinvalid
    subst hsame
    exact hp₂ hinvalid

theorem elements {read : Packet → Except OutOfBounds (α × Packet)} (h : ∀ p, Settles p (read p)) (n : Nat) (p : Packet) :
    Settles p (readElements read n p) := by
  induction n generalizing p with
  | zero => exact pure p _
  | succ n ih =>
    apply bind (h p)
    intro x p₁
    apply bind (ih p₁)
    intro l p₂
    exact pure p₂ _

end Settles

variable (i : IntType) (uninit : (t : Ty) → t.Value)

theorem readInt_settles (old : i.Value) (p : Packet) : Settles p (readInt i old p) := by
  apply Settles.bind (copyOut_settles p i.size)
  intro bytes p'
  cases bytes with
  | some bytes => exact Settles.pure p' _
  | none => exact Settles.pure p' _

/-- Whatever the packet holds, no read leaves its data, and a read after one that failed consumes nothing. -/
theorem readTy_settles (t : Ty) (old : t.Value) (p : Packet) : Settles p (readTy uninit t old p) := by
  induction t generalizing p with
  | bool =>
    apply Settles.bind (readInt_settles .u8 _ p)
    intro value p'
    exact Settles.pure p' _
  | int i => exact readInt_settles i old p
  | string =>
    apply Settles.bind (readInt_settles .u32 0 p)
    intro length p₁
    dsimp only
    split
    · apply Settles.bind (copyOut_settles p₁ _)
      intro bytes p₂
      cases bytes with
      | some bytes => exact Settles.pure p₂ _
      | none => exact Settles.pure p₂ _
    · exact Settles.pure p₁ _
  | vector t ih =>
    apply Settles.bind (readInt_settles .u32 0 p)
    intro size p₁
    apply Settles.bind (Settles.elements (ih _) _ p₁)
    intro l p₂
    exact Settles.pure p₂ _
  | array n t ih => exact Settles.elements (ih _) n p

theorem readAll_settles (types : List Ty) (p : Packet) : Settles p (readAll uninit types p) := by
  induction types generalizing p with
  | nil => exact Settles.pure p _
  | cons t types ih =>
    apply Settles.bind (readTy_settles uninit t (uninit t) p)
    intro value p₁
    apply Settles.bind (ih p₁)
    intro values p₂
    exact Settles.pure p₂ _

def Fits : (t : Ty) → t.Value → Prop
  | .bool, _ => True
  | .int _, _ => True
  | .string, s => s.length < 2 ^ 32
  | .vector t, l => l.length < 2 ^ 32 ∧ ∀ x ∈ l, Fits t x
  | .array _ t, l => ∀ x ∈ l.val, Fits t x

def between (before rest : Bytes) : Packet := { data := before ++ rest, readPos := before.length }

def encodeInt (i : IntType) (x : i.Value) : Bytes := toLittleEndian i.size (i.hton x.toNat)

def encode : (t : Ty) → t.Value → Bytes
  | .bool, true => encodeInt .u8 1
  | .bool, false => encodeInt .u8 0
  | .int i, x => encodeInt i x
  | .string, s => encodeInt .u32 (toU32 s.length) ++ s
  | .vector t, l => encodeInt .u32 (toU32 l.length) ++ l.flatMap fun x => encode t x
  | .array _ t, l => l.val.flatMap fun x => encode t x

theorem append_append (p : Packet) (b₁ b₂ : Bytes) : (p.append b₁).append b₂ = p.append (b₁ ++ b₂) := by
  simp [append]

@[simp] theorem append_nil (p : Packet) : p.append [] = p := by simp [append]

theorem copyOut_between (before bytes rest : Bytes) :
    (between before (bytes ++ rest)).copyOut bytes.length = .ok (some bytes, between (before ++ bytes) rest) := by
  rw [copyOut_eq_read]
  have hfits : before.length + bytes.length ≤ (before ++ (bytes ++ rest)).length := by simp
  simp [read, checkSize, between]

theorem htons_lt (x : Nat) : htons x < 2 ^ 16 := ofLittleEndian_reverse_lt 2 x

theorem htonl_lt (x : Nat) : htonl x < 2 ^ 32 := ofLittleEndian_reverse_lt 4 x

theorem ntohs_htons {x : Nat} (h : x < 2 ^ 16) : ntohs (htons x) = x := ofLittleEndian_reverse_twice (n := 2) h

theorem ntohl_htonl {x : Nat} (h : x < 2 ^ 32) : ntohl (htonl x) = x := ofLittleEndian_reverse_twice (n := 4) h

theorem htonll_lt (x : Nat) : htonll x < 2 ^ 64 := by
  have hlow := htonl_lt (x >>> 32)
  have hhigh := htonl_lt (x % 2 ^ 32)
  rw [htonll, ← Nat.shiftLeft_add_eq_or_of_lt hlow, Nat.shiftLeft_eq]
  omega

theorem ntohll_htonll {x : Nat} (h : x < 2 ^ 64) : ntohll (htonll x) = x := by
  have hlow := htonl_lt (x >>> 32)
  have hparts : htonll x = htonl (x % 2 ^ 32) * 2 ^ 32 + htonl (x >>> 32) := by
    rw [htonll, ← Nat.shiftLeft_add_eq_or_of_lt hlow, Nat.shiftLeft_eq]
  have hfirst : htonll x % 2 ^ 32 = htonl (x >>> 32) := by omega
  have hsecond : htonll x >>> 32 = htonl (x % 2 ^ 32) := by
    omega
  have hx : x >>> 32 < 2 ^ 32 := by
    omega
  have hrest : x % 2 ^ 32 < 2 ^ 32 := Nat.mod_lt _ (by decide)
  rw [ntohll, hfirst, hsecond, ntohl_htonl hx, ntohl_htonl hrest, ← Nat.shiftLeft_add_eq_or_of_lt hrest,
    Nat.shiftLeft_eq, Nat.shiftRight_eq_div_pow]
  omega

theorem hton_lt {x : Nat} (h : x < 2 ^ (8 * i.size)) : i.hton x < 256 ^ i.size := by
  cases i with
  | s8 | u8 => exact h
  | s16 | u16 => exact htons_lt x
  | s32 | u32 => exact htonl_lt x
  | s64 | u64 => exact htonll_lt x

theorem ntoh_hton {x : Nat} (h : x < 2 ^ (8 * i.size)) : i.ntoh (i.hton x) = x := by
  cases i with
  | s8 | u8 => rfl
  | s16 | u16 => exact ntohs_htons h
  | s32 | u32 => exact ntohl_htonl h
  | s64 | u64 => exact ntohll_htonll h

theorem readInt_between (x old : i.Value) (before rest : Bytes) :
    readInt i old (between before (encodeInt i x ++ rest)) = .ok (x, between (before ++ encodeInt i x) rest) := by
  have hcopy := copyOut_between before (encodeInt i x) rest
  have hlength : (encodeInt i x).length = i.size := length_toLittleEndian _ _
  have hbytes : ofLittleEndian (encodeInt i x) = i.hton x.toNat := ofLittleEndian_toLittleEndian (hton_lt i x.isLt)
  rw [hlength] at hcopy
  rw [readInt, hcopy]
  change Except.ok (BitVec.ofNat _ (i.ntoh (ofLittleEndian (encodeInt i x))), _) = _
  rw [hbytes, ntoh_hton i x.isLt, BitVec.ofNat_toNat, BitVec.setWidth_eq]

theorem writeInt_eq_append (x : i.Value) (p : Packet) : writeInt i x p = p.append (encodeInt i x) := rfl

theorem foldl_eq_append {α : Type} {write : α → Packet → Packet} {code : α → Bytes} (l : List α)
    (h : ∀ x ∈ l, ∀ p, write x p = p.append (code x)) (p : Packet) :
    l.foldl (fun p x => write x p) p = p.append (l.flatMap code) := by
  induction l generalizing p with
  | nil => simp
  | cons x l ih =>
    have hx := h x List.mem_cons_self p
    have hl := ih fun y hy => h y (List.mem_cons_of_mem x hy)
    rw [List.foldl_cons, hx, hl, append_append, List.flatMap_cons]

theorem toNat_size {n : Nat} (h : n < 2 ^ 32) : (toU32 n).toNat = n := by
  exact Nat.mod_eq_of_lt h

theorem write_eq_append (t : Ty) (value : t.Value) (p : Packet) (h : Fits t value) :
    write t value p = p.append (encode t value) := by
  induction t generalizing p with
  | bool =>
    cases value with
    | true => rfl
    | false => rfl
  | int i => rfl
  | string =>
    have hsize := toNat_size h
    rw [write, encode]
    rw [hsize, List.take_length, writeInt_eq_append]
    split
    case isTrue => rw [append_append]
    case isFalse hempty =>
      have hnil : value = [] := List.eq_nil_of_length_eq_zero (by omega)
      rw [hnil, List.append_nil]
  | vector t ih =>
    have helements := foldl_eq_append value fun x hx p => ih x p (h.2 x hx)
    rw [write, helements, writeInt_eq_append, append_append]
    rfl
  | array n t ih => exact foldl_eq_append value.val (fun x hx p => ih x p (h x hx)) p

theorem readElements_between {α : Type} {read : Packet → Except OutOfBounds (α × Packet)} {code : α → Bytes} {n : Nat}
    (l : List α) (hn : l.length = n) (before rest : Bytes)
    (h : ∀ x ∈ l, ∀ before rest, read (between before (code x ++ rest)) = .ok (x, between (before ++ code x) rest)) :
    readElements read n (between before (l.flatMap code ++ rest)) =
      .ok (⟨l, hn⟩, between (before ++ l.flatMap code) rest) := by
  subst hn
  induction l generalizing before with
  | nil => simp [readElements]
  | cons x l ih =>
    have hx := h x List.mem_cons_self before (l.flatMap code ++ rest)
    have hl := ih (before ++ code x) fun y hy => h y (List.mem_cons_of_mem x hy)
    have hcode : (x :: l).flatMap code = code x ++ l.flatMap code := List.flatMap_cons
    rw [hcode, List.append_assoc, ← List.append_assoc before]
    change (read (between before (code x ++ (l.flatMap code ++ rest))) >>= _) = _
    rw [hx]
    change (readElements read l.length (between (before ++ code x) (l.flatMap code ++ rest)) >>= _) = _
    rw [hl]
    rfl

theorem readTy_between (t : Ty) (value old : t.Value) (before rest : Bytes) (h : Fits t value) :
    readTy uninit t old (between before (encode t value ++ rest)) =
      .ok (value, between (before ++ encode t value) rest) := by
  induction t generalizing before rest with
  | bool =>
    cases value with
    | true =>
      rw [readTy, encode, readInt_between]
      rfl
    | false =>
      rw [readTy, encode, readInt_between]
      rfl
  | int i => exact readInt_between i value old before rest
  | string =>
    have hsize := toNat_size h
    rw [readTy, encode, List.append_assoc, readInt_between]
    change (if (toU32 value.length).toNat > 0 then _ else _) = _
    rw [hsize]
    split
    case isTrue =>
      rw [copyOut_between, ← List.append_assoc]
      rfl
    case isFalse hempty =>
      have hnil : value = [] := List.eq_nil_of_length_eq_zero (by omega)
      subst hnil
      simp
      rfl
  | vector t ih =>
    have hsize := toNat_size h.1
    rw [readTy, encode, List.append_assoc, readInt_between]
    change (readElements _ (toU32 value.length).toNat _ >>= _) = _
    rw [readElements_between value hsize.symm _ _ fun x hx before rest => ih x (uninit t) before rest (h.2 x hx),
      ← List.append_assoc]
    rfl
  | array n t ih =>
    exact readElements_between value.val value.property before rest
      fun x hx before rest => ih x (uninit t) before rest (h x hx)

def encodeAll (values : List (Σ t : Ty, t.Value)) : Bytes := values.flatMap fun v => encode v.1 v.2

theorem writeAll_eq_append (values : List (Σ t : Ty, t.Value)) (p : Packet) (h : ∀ v ∈ values, Fits v.1 v.2) :
    writeAll values p = p.append (encodeAll values) :=
  foldl_eq_append values (fun v hv p => write_eq_append v.1 v.2 p (h v hv)) p

theorem readAll_between (values : List (Σ t : Ty, t.Value)) (before rest : Bytes) (h : ∀ v ∈ values, Fits v.1 v.2) :
    readAll uninit (values.map Sigma.fst) (between before (encodeAll values ++ rest)) =
      .ok (values, between (before ++ encodeAll values) rest) := by
  induction values generalizing before with
  | nil => simp [readAll, encodeAll]
  | cons v values ih =>
    have hv := readTy_between uninit v.1 v.2 (uninit v.1) before (encodeAll values ++ rest) (h v List.mem_cons_self)
    have hvalues := ih (before ++ encode v.1 v.2) fun w hw => h w (List.mem_cons_of_mem v hw)
    have hcode : encodeAll (v :: values) = encode v.1 v.2 ++ encodeAll values := List.flatMap_cons
    rw [hcode, List.append_assoc, List.map_cons, readAll, hv]
    change (readAll uninit (values.map Sigma.fst) (between (before ++ encode v.1 v.2) (encodeAll values ++ rest))
      >>= _) = _
    rw [hvalues, List.append_assoc]
    rfl

def empty : Packet := { data := [] }

/-- Values come back when their strings and vectors have a size of 32 bits.  Of the start of what was written nothing
outside is read, and after a read that failed every later one fails and consumes nothing. -/
theorem readAll_writeAll (uninit : (t : Ty) → t.Value) (values : List (Σ t : Ty, t.Value)) :
    ((∀ v ∈ values, Fits v.1 v.2) → ∃ p, p.isValid = true ∧ p.endOfPacket = true ∧
      readAll uninit (values.map Sigma.fst) (writeAll values empty) = .ok (values, p)) ∧
    ∀ n types, ∃ result p,
      readAll uninit types { data := (writeAll values empty).data.take n } = .ok (result, p) ∧
      (p.isValid = false → ∀ later, ∃ result', readAll uninit later p = .ok (result', p)) := by
  constructor
  · intro h
    have hwritten : writeAll values empty = between [] (encodeAll values ++ []) := by
      rw [writeAll_eq_append values empty h, List.append_nil]
      rfl
    refine ⟨between ([] ++ encodeAll values) [], rfl, ?_, ?_⟩
    · simp [endOfPacket, between]
    · rw [hwritten]
      exact readAll_between uninit values [] [] h
  · intro n types
    obtain ⟨result, p, hread, -⟩ := readAll_settles uninit types { data := (writeAll values empty).data.take n }
    refine ⟨result, p, hread, ?_⟩
    intro hinvalid later
    obtain ⟨result', p', hlater, hp'⟩ := readAll_settles uninit later p
    have hsame := hp' hinvalid
    subst hsame
    exact ⟨result', hlater⟩

def zeroed : (t : Ty) → t.Value
  | .bool => false
  | .int _ => 0
  | .string => []
  | .vector _ => []
  | .array n t => ⟨List.replicate n (zeroed t), List.length_replicate⟩

/-- A vector of strings, one of them empty, and an array. -/
theorem readAll_writeAll_nested :
    ∃ p, p.isValid = true ∧ p.endOfPacket = true ∧
      readAll zeroed [.vector .string, .array 2 (.int .s64)]
        (writeAll [⟨.vector .string, [[1, 2], []]⟩, ⟨.array 2 (.int .s64), ⟨[-1, 5], rfl⟩⟩] empty) =
      .ok ([⟨.vector .string, [[1, 2], []]⟩, ⟨.array 2 (.int .s64), ⟨[-1, 5], rfl⟩⟩], p) :=
  (readAll_writeAll zeroed [⟨.vector .string, [[1, 2], []]⟩, ⟨.array 2 (.int .s64), ⟨[-1, 5], rfl⟩⟩]).1
    (by simp [Fits])

theorem readAll_of_wrapped {s : Bytes} (h : s.length = 2 ^ 32) :
    readAll zeroed [.string] (writeAll [⟨.string, s⟩] empty) =
      .ok ([⟨.string, []⟩], between [0, 0, 0, 0] []) := by
  have hsize : toU32 s.length = 0 := by
    rw [h]
    rfl
  have hwritten : writeAll [⟨.string, s⟩] empty = between [] (encodeInt .u32 0 ++ []) := by
    change write .string s empty = _
    rw [write]
    rw [hsize]
    rfl
  rw [hwritten, readAll, readTy, readInt_between]
  rfl

/-- A string of 2 ^ 32 characters is read back as the empty one. -/
theorem readAll_writeAll_wrapped :
    ¬ ∃ p, p.isValid = true ∧ p.endOfPacket = true ∧
      readAll zeroed [.string] (writeAll [⟨.string, List.replicate (2 ^ 32) 0⟩] empty) =
        .ok ([⟨.string, List.replicate (2 ^ 32) 0⟩], p) := by
  have hlength : (List.replicate (2 ^ 32) (0 : UInt8)).length = 2 ^ 32 := List.length_replicate
  generalize List.replicate (2 ^ 32) (0 : UInt8) = s at hlength ⊢
  rintro ⟨p, -, -, hread⟩
  rw [readAll_of_wrapped hlength] at hread
  simp only [Except.ok.injEq, Prod.mk.injEq, List.cons.injEq, and_true] at hread
  obtain ⟨hs, -⟩ := hread
  cases hs
  simp at hlength

end Packet

end SweepDSEmu.Network
