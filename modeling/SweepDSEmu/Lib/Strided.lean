import Mathlib.Tactic.Ring

/-!
# Lines with gaps

A strided sequence consists of lines of `width` elements, with a gap behind each line.  A cursor walks it: it knows its
offset and how much of the line is left, and jumps over the gap at the end of a line.
-/

namespace SweepDSEmu

def strided (width gap n : Nat) : Nat := n / width * (width + gap) + n % width

section

variable {width gap n m i : Nat}

theorem strided_zero_gap (width n : Nat) : strided width 0 n = n := by
  unfold strided
  rw [Nat.add_zero, Nat.mul_comm, Nat.div_add_mod]

theorem strided_add (h : n % width + i < width) : strided width gap (n + i) = strided width gap n + i := by
  have hn : n + i = width * (n / width) + (n % width + i) := by
    rw [← Nat.add_assoc, Nat.div_add_mod]
  have hpos : 0 < width := by omega
  unfold strided
  rw [hn, Nat.mul_add_div hpos, Nat.mul_add_mod, Nat.div_eq_of_lt h, Nat.mod_eq_of_lt h, Nat.add_zero, Nat.add_assoc]

theorem strided_add_line (hpos : 0 < width) (h : n % width + i = width) :
    strided width gap (n + i) = strided width gap n + i + gap := by
  have hn : n + i = width * (n / width + 1) := by
    rw [Nat.mul_succ, ← h, ← Nat.add_assoc, h, Nat.div_add_mod]
  unfold strided
  rw [hn, Nat.mul_div_cancel_left _ hpos, Nat.mul_mod_right, Nat.succ_mul]
  omega

theorem strided_lt_succ (hpos : 0 < width) (n : Nat) : strided width gap n < strided width gap (n + 1) := by
  rcases Nat.lt_or_ge (n % width + 1) width with h | h
  · rw [strided_add h]
    exact Nat.lt_succ_self _
  · have hline : n % width + 1 = width := by
      have := Nat.mod_lt n hpos
      omega
    rw [strided_add_line hpos hline]
    omega

theorem strided_strictMono (hpos : 0 < width) : StrictMono (strided width gap) :=
  strictMono_nat_of_lt_succ (strided_lt_succ hpos)

/-- The elements of whole lines lie in front of the end of the last gap. -/
theorem strided_lt_of_dvd {count : Nat} (hdvd : width ∣ count) (hn : n < count) :
    strided width gap n < count / width * (width + gap) := by
  obtain ⟨lines, rfl⟩ := hdvd
  have hpos : 0 < width := Nat.pos_of_mul_pos_right (Nat.zero_lt_of_lt hn)
  have hline : n / width < lines := Nat.div_lt_of_lt_mul hn
  have hmod := Nat.mod_lt n hpos
  have hle : (n / width + 1) * (width + gap) ≤ lines * (width + gap) := Nat.mul_le_mul_right _ hline
  rw [Nat.mul_div_cancel_left _ hpos]
  unfold strided
  rw [Nat.succ_mul] at hle
  omega

end

/-- A place in a strided sequence. -/
structure Cursor where
  offset : Nat
  remaining : Nat
  deriving DecidableEq

namespace Cursor

variable {width gap n count : Nat}

/-- Takes `count` elements of the line, and goes to the next line at its end. -/
def advance (width gap count : Nat) (cursor : Cursor) : Cursor :=
  if cursor.remaining - count = 0 then { offset := cursor.offset + count + gap, remaining := width }
  else { offset := cursor.offset + count, remaining := cursor.remaining - count }

def atIndex (width gap n : Nat) : Cursor := { offset := strided width gap n, remaining := width - n % width }

theorem atIndex_zero (width gap : Nat) : atIndex width gap 0 = { offset := 0, remaining := width } := by
  unfold atIndex strided
  rw [Nat.zero_div, Nat.zero_mul, Nat.zero_mod, Nat.sub_zero]

theorem remaining_pos (gap n : Nat) (hpos : 0 < width) : 0 < (atIndex width gap n).remaining :=
  Nat.sub_pos_of_lt (Nat.mod_lt n hpos)

theorem advance_atIndex (hpos : 0 < width) (hcount : count ≤ (atIndex width gap n).remaining) :
    (atIndex width gap n).advance width gap count = atIndex width gap (n + count) := by
  have hmod := Nat.mod_lt n hpos
  unfold atIndex at hcount
  unfold advance atIndex
  dsimp only at hcount ⊢
  by_cases hend : width - n % width - count = 0
  · have hline : n % width + count = width := by omega
    have hnext : (n + count) % width = 0 := by
      rw [Nat.add_mod, ← Nat.add_mod_mod, Nat.mod_mod, Nat.add_mod_mod, hline, Nat.mod_self]
    rw [if_pos hend, strided_add_line hpos hline, hnext, Nat.sub_zero]
  · have hline : n % width + count < width := by omega
    have hnext : (n + count) % width = n % width + count := by
      rw [← Nat.mod_add_mod, Nat.mod_eq_of_lt hline]
    rw [if_neg hend, strided_add hline, hnext, Nat.sub_sub]

end Cursor

end SweepDSEmu
