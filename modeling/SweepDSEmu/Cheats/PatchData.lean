import SweepDSEmu.Cheats.GatewayCheat
import SweepDSEmu.Lib.ByteOrder

/-!
# The data of patches

An executed patch of `n` bytes writes the first `n` bytes of the lines behind it, and goes on behind them.  Where some
of these lines are missing, it reads behind the last line.
-/

namespace SweepDSEmu.Cheats

def wordBytes (word : UInt32) : List UInt8 := toLittleEndian 4 word.toNat

def dataBytes (data : List CheatLine) : List UInt8 :=
  data.flatMap fun line => wordBytes line.first ++ wordBytes line.value

inductive MemoryWrite where
  | word (addr value : UInt32)
  | byte (addr : UInt32) (value : UInt8)
  deriving DecidableEq

def placeBytes (addr : UInt32) : List UInt8 → List (UInt32 × UInt8)
  | [] => []
  | b :: bytes => (addr, b) :: placeBytes (addr + 1) bytes

def MemoryWrite.bytes : MemoryWrite → List (UInt32 × UInt8)
  | .word addr value => placeBytes addr (wordBytes value)
  | .byte addr value => [(addr, value)]

def patchWrites (addr : UInt32) : List UInt8 → List MemoryWrite
  | b₀ :: b₁ :: b₂ :: b₃ :: bytes =>
    .word addr (ofLittleEndian [b₀, b₁, b₂, b₃]).toUInt32 :: patchWrites (addr + 4) bytes
  | b :: bytes => .byte addr b :: patchWrites (addr + 1) bytes
  | [] => []

section

variable {M : Type} (host : CheatMemory M)

def MemoryWrite.apply (m : M) : MemoryWrite → M
  | .word addr value => host.write32 m addr value
  | .byte addr value => host.write8 m addr value

def applyWrites (m : M) (writes : List MemoryWrite) : M := writes.foldl (MemoryWrite.apply host) m

end

theorem length_wordBytes (word : UInt32) : (wordBytes word).length = 4 := length_toLittleEndian _ _

theorem toUInt32_wordBytes (word : UInt32) : (ofLittleEndian (wordBytes word)).toUInt32 = word := by
  have hlt : word.toNat < 256 ^ 4 := word.toNat_lt
  rw [wordBytes, ofLittleEndian_toLittleEndian hlt]
  exact UInt32.ofNat_toNat

private theorem wordBytes_ofLittleEndian (b₀ b₁ b₂ b₃ : UInt8) :
    wordBytes (ofLittleEndian [b₀, b₁, b₂, b₃]).toUInt32 = [b₀, b₁, b₂, b₃] := by
  have hlt : ofLittleEndian [b₀, b₁, b₂, b₃] < UInt32.size := by simpa using ofLittleEndian_lt [b₀, b₁, b₂, b₃]
  rw [wordBytes, show (ofLittleEndian [b₀, b₁, b₂, b₃]).toUInt32.toNat = _ from UInt32.toNat_ofNat_of_lt hlt]
  exact toLittleEndian_ofLittleEndian [b₀, b₁, b₂, b₃]

theorem bytes_patchWrites (addr : UInt32) (bytes : List UInt8) :
    (patchWrites addr bytes).flatMap MemoryWrite.bytes = placeBytes addr bytes := by
  induction addr, bytes using patchWrites.induct with
  | case1 addr b₀ b₁ b₂ b₃ bytes ih =>
    have haddr : addr + 1 + 1 + 1 + 1 = addr + 4 := by rw [UInt32.add_assoc, UInt32.add_assoc, UInt32.add_assoc]; rfl
    rw [patchWrites, List.flatMap_cons, ih, MemoryWrite.bytes, wordBytes_ofLittleEndian, ← haddr]
    rfl
  | case2 addr b bytes hshort ih =>
    rw [patchWrites.eq_2 addr b bytes hshort, List.flatMap_cons, ih]
    rfl
  | case3 addr => rfl

section

variable {M : Type} {host : CheatMemory M} {lines : List CheatLine}

private def patchLoops (host : CheatMemory M) (lines : List CheatLine) (numBytes : Nat) (p : PatchState M) :
    Except CheatFault (PatchState M) := do
  let r ← patchWordLoop host lines numBytes p
  patchByteLoop host lines 0 r.1 r.2

private theorem patchLoops_word (host : CheatMemory M) (n : Nat) (p : PatchState M) {tmp : UInt32}
    (htmp : patchWord lines p = .ok tmp) :
    patchLoops host lines (n + 4) p = patchLoops host lines n
      { mem := host.write32 p.mem p.addr tmp
        addr := p.addr + 4
        first := ¬ p.first
        currentLineNr := if ¬ p.first ∧ n + 4 > 4 then p.currentLineNr + 1 else p.currentLineNr } := by
  unfold patchLoops
  rw [patchWordLoop, htmp, ok_bind]

private theorem patchLoops_fault {n : Nat} (hn : 0 < n) (p : PatchState M) {fault : CheatFault}
    (htmp : patchWord lines p = .error fault) : patchLoops host lines n p = .error fault := by
  obtain rfl | rfl | rfl | ⟨n, rfl⟩ : n = 1 ∨ n = 2 ∨ n = 3 ∨ ∃ k, n = k + 4 := by
    rcases Nat.lt_or_ge n 4 with h | h
    · omega
    · exact .inr (.inr (.inr ⟨n - 4, by omega⟩))
  all_goals
    unfold patchLoops patchWordLoop
    first
      | rw [htmp]; rfl
      | rw [ok_bind, patchByteLoop, htmp]; rfl

private theorem shifted_byte (word shift : UInt32) {i : Nat} (hshift : shift.toNat = 8 * i) (hi : i < 4) :
    (word >>> shift).toUInt8 = UInt8.ofNat (word.toNat / 256 ^ i) := by
  apply UInt8.toNat_inj.mp
  rw [UInt32.toNat_toUInt8, UInt32.toNat_shiftRight, hshift, Nat.shiftRight_eq_div_pow, UInt8.toNat_ofNat',
    show 8 * i % 32 = 8 * i from Nat.mod_eq_of_lt (by omega), Nat.pow_mul]

private theorem patchLoops_bytes (host : CheatMemory M) {n : Nat} (hn : n < 4) (p : PatchState M) {tmp : UInt32}
    (htmp : patchWord lines p = .ok tmp) : ∃ p', patchLoops host lines n p = .ok p' ∧
      p'.mem = applyWrites host p.mem (patchWrites p.addr ((wordBytes tmp).take n)) ∧
      p'.currentLineNr = p.currentLineNr := by
  have h₀ := shifted_byte tmp 0 (i := 0) rfl (by decide)
  have h₁ := shifted_byte tmp (0 + 8) (i := 1) rfl (by decide)
  have h₂ := shifted_byte tmp (0 + 8 + 8) (i := 2) rfl (by decide)
  have hword (mem : M) (addr : UInt32) : patchWord lines { p with mem := mem, addr := addr } = .ok tmp := htmp
  have hbytes : wordBytes tmp = [UInt8.ofNat (tmp.toNat / 256 ^ 0), UInt8.ofNat (tmp.toNat / 256 ^ 1),
      UInt8.ofNat (tmp.toNat / 256 ^ 2), UInt8.ofNat (tmp.toNat / 256 ^ 3)] := by
    simp [wordBytes, toLittleEndian, Nat.div_div_eq_div_mul]
  rw [hbytes, ← h₀, ← h₁, ← h₂]
  obtain rfl | rfl | rfl | rfl : n = 0 ∨ n = 1 ∨ n = 2 ∨ n = 3 := by omega
  · exact ⟨p, rfl, rfl, rfl⟩
  all_goals
    simp only [patchLoops, patchWordLoop, ok_bind, patchByteLoop, htmp, hword]
    exact ⟨_, rfl, rfl, rfl⟩

private theorem patchWrites_word (addr word : UInt32) (n : Nat) (bytes : List UInt8) :
    patchWrites addr ((wordBytes word ++ bytes).take (n + 4)) =
      .word addr word :: patchWrites (addr + 4) (bytes.take n) := by
  have hword := toUInt32_wordBytes word
  have hlength := length_wordBytes word
  obtain ⟨b₀, b₁, b₂, b₃, hbytes⟩ : ∃ b₀ b₁ b₂ b₃, wordBytes word = [b₀, b₁, b₂, b₃] := ⟨_, _, _, _, rfl⟩
  rw [hbytes] at hword ⊢
  show MemoryWrite.word addr (ofLittleEndian [b₀, b₁, b₂, b₃]).toUInt32 :: _ = _
  rw [hword]
  rfl

private theorem patchLoops_spec (host : CheatMemory M) (lines : List CheatLine) {n : Nat} (hn : 0 < n)
    (p : PatchState M) (hfirst : p.first = true) :
    (p.currentLineNr + (n + 7) / 8 ≤ lines.length → ∃ p', patchLoops host lines n p = .ok p' ∧
      p'.mem = applyWrites host p.mem (patchWrites p.addr ((dataBytes (lines.drop p.currentLineNr)).take n)) ∧
      p'.currentLineNr + 1 = p.currentLineNr + (n + 7) / 8) ∧
    (lines.length < p.currentLineNr + (n + 7) / 8 → patchLoops host lines n p = .error .outOfRange) := by
  induction n using Nat.strong_induction_on generalizing p with
  | _ n ih =>
  rcases Nat.lt_or_ge p.currentLineNr lines.length with hline | hline
  · have hfirstWord : patchWord lines p = .ok lines[p.currentLineNr].first := by
      rw [patchWord, List.getElem?_eq_getElem hline, hfirst]
      rfl
    have hdata : dataBytes (lines.drop p.currentLineNr) = wordBytes lines[p.currentLineNr].first ++
        (wordBytes lines[p.currentLineNr].value ++ dataBytes (lines.drop (p.currentLineNr + 1))) := by
      rw [List.drop_eq_getElem_cons hline, dataBytes, List.flatMap_cons, List.append_assoc]
      rfl
    rw [hdata]
    rcases Nat.lt_or_ge n 4 with hshort | hlong
    · obtain ⟨p', hp', hmem, hcurrent⟩ := patchLoops_bytes host hshort p hfirstWord
      refine ⟨fun _ => ⟨p', hp', ?_, by omega⟩, fun hlt => by omega⟩
      rw [hmem, List.take_append_of_le_length (by rw [length_wordBytes]; omega)]
    · obtain ⟨k, rfl⟩ : ∃ k, n = k + 4 := ⟨n - 4, by omega⟩
      have hsecondWord (mem : M) (addr : UInt32) : patchWord lines
          { mem := mem, addr := addr, first := false, currentLineNr := p.currentLineNr } =
            .ok lines[p.currentLineNr].value := by
        rw [patchWord, List.getElem?_eq_getElem hline]
        rfl
      rw [patchLoops_word host k p hfirstWord, patchWrites_word, hfirst, if_neg (fun h => h.1 rfl)]
      rcases Nat.lt_or_ge k 4 with hshort | hlong
      · obtain ⟨p', hp', hmem, hcurrent⟩ := patchLoops_bytes host hshort _
          (hsecondWord (host.write32 p.mem p.addr lines[p.currentLineNr].first) (p.addr + 4))
        refine ⟨fun _ => ⟨p', hp', ?_, by dsimp only at hcurrent; omega⟩, fun hlt => by omega⟩
        rw [hmem, List.take_append_of_le_length (by rw [length_wordBytes]; omega)]
        rfl
      · obtain ⟨j, rfl⟩ : ∃ j, k = j + 4 := ⟨k - 4, by omega⟩
        have hsecond := patchLoops_word host j _
          (hsecondWord (host.write32 p.mem p.addr lines[p.currentLineNr].first) (p.addr + 4))
        rw [show (decide ¬ (true : Bool) = true) = false from rfl, hsecond, patchWrites_word]
        rcases Nat.eq_zero_or_pos j with rfl | hj
        · exact ⟨fun _ => ⟨_, rfl, rfl, rfl⟩, fun hlt => by omega⟩
        · rw [if_pos ⟨Bool.false_ne_true, by omega⟩]
          obtain ⟨hok, hfault⟩ := ih j (by omega) hj
            { mem := host.write32 (host.write32 p.mem p.addr lines[p.currentLineNr].first) (p.addr + 4)
                lines[p.currentLineNr].value
              addr := p.addr + 4 + 4
              first := true
              currentLineNr := p.currentLineNr + 1 } rfl
          dsimp only at hok hfault
          constructor
          · intro hle
            obtain ⟨p', hp', hmem, hcurrent⟩ := hok (by omega)
            exact ⟨p', hp', hmem, by omega⟩
          · intro hlt
            exact hfault (by omega)
  · have hfault : patchWord lines p = .error .outOfRange := by
      rw [patchWord, List.getElem?_eq_none hline]
    exact ⟨fun hle => by omega, fun _ => patchLoops_fault hn p hfault⟩

def patchData (lines : List CheatLine) (current : Nat) (line : CheatLine) : List UInt8 :=
  (dataBytes (lines.drop (current + 1))).take line.value.toNat

variable {line : CheatLine} {s : State} {m : M}

theorem patchOp_skips (hflag : s.ifFlag > 0) : patchOp host lines line s m =
    .ok ({ s with currentLineNr := s.currentLineNr + patchLines line }, m) :=
  if_pos hflag

private theorem patchOp_eq (hflag : ¬ s.ifFlag > 0) : patchOp host lines line s m =
    patchLoops host lines line.value.toNat
      { mem := m
        addr := line.address + s.offset
        first := true
        currentLineNr := if line.value.toNat > 0 then s.currentLineNr + 1 else s.currentLineNr } >>=
    fun p => .ok ({ s with currentLineNr := p.currentLineNr }, p.mem) := by
  unfold patchOp patchLoops
  rw [if_neg hflag]
  dsimp only
  cases patchWordLoop host lines line.value.toNat _ with
  | error fault => rfl
  | ok r => rfl

theorem patchOp_writes (hflag : ¬ s.ifFlag > 0) (hdata : s.currentLineNr + patchLines line < lines.length) :
    patchOp host lines line s m = .ok ({ s with currentLineNr := s.currentLineNr + patchLines line },
      applyWrites host m (patchWrites (line.address + s.offset) (patchData lines s.currentLineNr line))) := by
  unfold patchLines at hdata ⊢
  unfold patchData
  rw [patchOp_eq hflag]
  rcases Nat.eq_zero_or_pos line.value.toNat with hzero | hpos
  · rw [hzero]
    rfl
  · rw [if_pos hpos]
    obtain ⟨p, hp, hmem, hcurrent⟩ := (patchLoops_spec host lines hpos
      ⟨m, line.address + s.offset, true, s.currentLineNr + 1⟩ rfl).1 (by dsimp only; omega)
    dsimp only at hmem hcurrent
    rw [hp, ok_bind, hmem, show p.currentLineNr = s.currentLineNr + (line.value.toNat + 7) / 8 by omega]

theorem patchOp_fault (hflag : ¬ s.ifFlag > 0) (hline : s.currentLineNr < lines.length)
    (hdata : lines.length ≤ s.currentLineNr + patchLines line) :
    patchOp host lines line s m = .error .outOfRange := by
  unfold patchLines at hdata
  have hpos : 0 < line.value.toNat := by omega
  rw [patchOp_eq hflag, if_pos hpos, (patchLoops_spec host lines hpos ⟨m, line.address + s.offset, true, _⟩ rfl).2
    (by dsimp only; omega)]
  rfl

end

end SweepDSEmu.Cheats
