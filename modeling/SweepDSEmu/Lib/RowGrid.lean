import Mathlib.Tactic.Ring

/-!
# Grids that are stored row by row

A memory of cells of the same size, a number of which make a row.  The places of the memory are numbered from the start
of a row on, and a rectangle that is stored without a gap is an interval of places: a part of one row, or a number of
whole rows.

* `RowGrid.enclosing` is the least rectangle that contains an interval.
* `RowGrid.inner` is a rectangle inside an interval of whole cells.
-/

namespace SweepDSEmu

def floorTo (a x : Nat) : Nat := x / a * a

def ceilTo (a x : Nat) : Nat := (x + (a - 1)) / a * a

theorem dvd_floorTo (a x : Nat) : a ∣ floorTo a x := Nat.dvd_mul_left a _

theorem dvd_ceilTo (a x : Nat) : a ∣ ceilTo a x := Nat.dvd_mul_left a _

theorem floorTo_le (a x : Nat) : floorTo a x ≤ x := Nat.div_mul_le_self x a

variable {a : Nat}

theorem lt_floorTo_add (ha : 0 < a) (x : Nat) : x < floorTo a x + a := by
  have h := Nat.lt_div_mul_add ha (a := x)
  exact h

theorem le_ceilTo (ha : 0 < a) (x : Nat) : x ≤ ceilTo a x := by
  have h := lt_floorTo_add ha (x + (a - 1))
  unfold floorTo at h
  unfold ceilTo
  omega

theorem ceilTo_lt (ha : 0 < a) (x : Nat) : ceilTo a x < x + a := by
  have h := Nat.div_mul_le_self (x + (a - 1)) a
  unfold ceilTo
  omega

theorem le_floorTo_iff {a x y : Nat} (ha : 0 < a) (hy : a ∣ y) : y ≤ floorTo a x ↔ y ≤ x := by
  obtain ⟨k, rfl⟩ := hy
  rw [Nat.mul_comm a k]
  unfold floorTo
  rw [Nat.mul_le_mul_right_iff ha, Nat.le_div_iff_mul_le ha]

theorem ceilTo_le_iff {a x y : Nat} (ha : 0 < a) (hy : a ∣ y) : ceilTo a x ≤ y ↔ x ≤ y := by
  constructor
  · exact fun h => (le_ceilTo ha x).trans h
  · intro h
    by_contra hlt
    have hlt : y + 1 ≤ ceilTo a x := by omega
    obtain ⟨k, hk⟩ := hy
    obtain ⟨m, hm⟩ := dvd_ceilTo a x
    have h1 := ceilTo_lt ha x
    have hkm : k < m := by
      by_contra hle
      have := Nat.mul_le_mul_left a (show m ≤ k by omega)
      omega
    have := Nat.mul_le_mul_left a (show k + 1 ≤ m from hkm)
    rw [Nat.mul_add, Nat.mul_one] at this
    omega

theorem floorTo_of_dvd {a x : Nat} (h : a ∣ x) : floorTo a x = x := Nat.div_mul_cancel h

theorem ceilTo_of_dvd {a x : Nat} (ha : 0 < a) (h : a ∣ x) : ceilTo a x = x :=
  Nat.le_antisymm ((ceilTo_le_iff ha h).mpr Nat.le.refl) (le_ceilTo ha x)

theorem floorTo_eq_sub (a x : Nat) : floorTo a x = x - x % a := by
  have h := Nat.div_add_mod x a
  rw [Nat.mul_comm] at h
  unfold floorTo
  omega

theorem floorTo_add_of_dvd {a k : Nat} (ha : 0 < a) (h : a ∣ k) (x : Nat) : floorTo a (k + x) = k + floorTo a x := by
  obtain ⟨m, rfl⟩ := h
  unfold floorTo
  rw [Nat.mul_add_div ha, Nat.add_mul, Nat.mul_comm m a]

theorem ceilTo_add_of_dvd {a k : Nat} (ha : 0 < a) (h : a ∣ k) (x : Nat) : ceilTo a (k + x) = k + ceilTo a x := by
  have h1 := floorTo_add_of_dvd ha h (x + (a - 1))
  rw [← Nat.add_assoc] at h1
  exact h1

theorem add_le_of_dvd_of_lt {a x y : Nat} (hx : a ∣ x) (hy : a ∣ y) (h : x < y) : x + a ≤ y := by
  obtain ⟨k, rfl⟩ := hx
  obtain ⟨m, rfl⟩ := hy
  have hkm : k < m := by
    by_contra hle
    have := Nat.mul_le_mul_left a (show m ≤ k by omega)
    omega
  have := Nat.mul_le_mul_left a (show k + 1 ≤ m from hkm)
  rwa [Nat.mul_add, Nat.mul_one] at this

theorem ceilTo_of_not_dvd {a x : Nat} (ha : 0 < a) (h : ¬ a ∣ x) : ceilTo a x = floorTo a x + a := by
  refine Nat.le_antisymm ?_ ?_
  · exact (ceilTo_le_iff ha (Nat.dvd_add (dvd_floorTo a x) (Nat.dvd_refl a))).mpr (lt_floorTo_add ha x).le
  · refine add_le_of_dvd_of_lt (dvd_floorTo a x) (dvd_ceilTo a x) (Nat.lt_of_le_of_ne ?_ ?_)
    · exact (floorTo_le a x).trans (le_ceilTo ha x)
    · intro heq
      have h1 := floorTo_le a x
      have h2 := le_ceilTo ha x
      have hx : x = floorTo a x := by omega
      exact h (hx ▸ dvd_floorTo a x)

theorem floorTo_lt_ceilTo {a x y : Nat} (ha : 0 < a) (h : x < y) : floorTo a x + a ≤ ceilTo a y :=
  add_le_of_dvd_of_lt (dvd_floorTo a x) (dvd_ceilTo a y)
    (Nat.lt_of_le_of_lt (floorTo_le a x) (h.trans_le (le_ceilTo ha y)))

structure RowGrid where
  cell : Nat
  columns : Nat
  cell_pos : 0 < cell
  columns_pos : 0 < columns

namespace RowGrid

variable (g : RowGrid)

def row : Nat := g.cell * g.columns

theorem row_pos : 0 < g.row := Nat.mul_pos g.cell_pos g.columns_pos

theorem cell_dvd_row : g.cell ∣ g.row := Nat.dvd_mul_right _ _

def InRow (u v : Nat) : Prop := v ≤ floorTo g.row u + g.row

structure IsRect (u v : Nat) : Prop where
  lt : u < v
  lower : g.cell ∣ u
  upper : g.cell ∣ v
  shape : g.InRow u v ∨ (g.row ∣ u ∧ g.row ∣ v)

instance (u v : Nat) : Decidable (g.InRow u v) := inferInstanceAs (Decidable (_ ≤ _))

/-- The rectangle of the cells or rows that an interval touches. -/
def enclosing (u v : Nat) : Nat × Nat :=
  if g.InRow u v then (floorTo g.cell u, ceilTo g.cell v) else (floorTo g.row u, ceilTo g.row v)

/-- A rectangle inside an interval: the interval itself if it lies in one row, the whole rows in it if there are any,
and otherwise the larger one of its two parts. -/
def inner (u v : Nat) : Nat × Nat :=
  let first := ceilTo g.row u
  let last := floorTo g.row v
  if last < first then (u, v)
  else if first < last then (first, last)
  else if first - u > v - first then (u, first) else (first, v)

variable {g} {u v : Nat}

theorem InRow.ceilTo (h : g.InRow u v) : ceilTo g.cell v ≤ floorTo g.row u + g.row :=
  (ceilTo_le_iff g.cell_pos (Nat.dvd_add (g.cell_dvd_row.trans (dvd_floorTo _ _)) g.cell_dvd_row)).mpr h

theorem floorTo_row_le_cell (g : RowGrid) (u : Nat) : floorTo g.row u ≤ floorTo g.cell u :=
  (le_floorTo_iff g.cell_pos (g.cell_dvd_row.trans (dvd_floorTo _ _))).mpr (floorTo_le _ _)

theorem floorTo_row_floorTo_cell (g : RowGrid) (u : Nat) : floorTo g.row (floorTo g.cell u) = floorTo g.row u := by
  refine Nat.le_antisymm ?_ ?_
  · exact (le_floorTo_iff g.row_pos (dvd_floorTo _ _)).mpr ((floorTo_le _ _).trans (floorTo_le _ _))
  · exact (le_floorTo_iff g.row_pos (dvd_floorTo _ _)).mpr (g.floorTo_row_le_cell u)

theorem enclosing_of_inRow (h : g.InRow u v) : g.enclosing u v = (floorTo g.cell u, ceilTo g.cell v) := if_pos h

theorem enclosing_of_not_inRow (h : ¬ g.InRow u v) : g.enclosing u v = (floorTo g.row u, ceilTo g.row v) := if_neg h

theorem enclosing_le (g : RowGrid) (u v : Nat) : (g.enclosing u v).1 ≤ u := by
  unfold enclosing
  split_ifs
  · exact floorTo_le _ _
  · exact floorTo_le _ _

theorem le_enclosing (g : RowGrid) (u v : Nat) : v ≤ (g.enclosing u v).2 := by
  unfold enclosing
  split_ifs
  · exact le_ceilTo g.cell_pos v
  · exact le_ceilTo g.row_pos v

theorem enclosing_isRect (g : RowGrid) (h : u < v) : g.IsRect (g.enclosing u v).1 (g.enclosing u v).2 where
  lt := (g.enclosing_le u v).trans_lt (h.trans_le (g.le_enclosing u v))
  lower := by
    unfold enclosing
    split_ifs
    · exact dvd_floorTo _ _
    · exact g.cell_dvd_row.trans (dvd_floorTo _ _)
  upper := by
    unfold enclosing
    split_ifs
    · exact dvd_ceilTo _ _
    · exact g.cell_dvd_row.trans (dvd_ceilTo _ _)
  shape := by
    unfold enclosing
    split_ifs with hrow
    · left
      unfold InRow
      rw [floorTo_row_floorTo_cell]
      exact hrow.ceilTo
    · exact Or.inr ⟨dvd_floorTo _ _, dvd_ceilTo _ _⟩

theorem IsRect.enclosing_subset {a b : Nat} (h : g.IsRect a b) (hau : a ≤ u) (hvb : v ≤ b) :
    a ≤ (g.enclosing u v).1 ∧ (g.enclosing u v).2 ≤ b := by
  unfold enclosing
  by_cases hrow : g.InRow u v
  · rw [if_pos hrow]
    exact ⟨(le_floorTo_iff g.cell_pos h.lower).mpr hau, (ceilTo_le_iff g.cell_pos h.upper).mpr hvb⟩
  · rw [if_neg hrow]
    rcases h.shape with hin | ⟨ha, hb⟩
    · -- the interval would lie in the row of the rectangle
      refine absurd ?_ hrow
      have h1 : floorTo g.row a ≤ floorTo g.row u :=
        (le_floorTo_iff g.row_pos (dvd_floorTo _ _)).mpr ((floorTo_le _ _).trans hau)
      unfold InRow at hin ⊢
      omega
    · exact ⟨(le_floorTo_iff g.row_pos ha).mpr hau, (ceilTo_le_iff g.row_pos hb).mpr hvb⟩

theorem IsRect.enclosing_eq (h : g.IsRect u v) : g.enclosing u v = (u, v) := by
  have h1 := h.enclosing_subset Nat.le.refl Nat.le.refl
  have h2 := g.enclosing_le u v
  have h3 := g.le_enclosing u v
  exact Prod.ext (by omega) (by omega)

theorem inner_subset (g : RowGrid) (u v : Nat) : u ≤ (g.inner u v).1 ∧ (g.inner u v).2 ≤ v := by
  have h1 := le_ceilTo g.row_pos u
  have h2 := floorTo_le g.row v
  unfold inner
  dsimp only
  split_ifs
  · exact ⟨Nat.le.refl, Nat.le.refl⟩
  · exact ⟨h1, h2⟩
  · exact ⟨Nat.le.refl, by omega⟩
  · exact ⟨h1, Nat.le.refl⟩

private theorem inRow_of_le_ceilTo (h : v ≤ ceilTo g.row u) : g.InRow u v := by
  have h1 := floorTo_lt_ceilTo g.row_pos (Nat.lt_succ_self u)
  have h2 : ceilTo g.row u ≤ floorTo g.row u + g.row :=
    (ceilTo_le_iff g.row_pos (Nat.dvd_add (dvd_floorTo _ _) (Nat.dvd_refl _))).mpr
      (lt_floorTo_add g.row_pos u).le
  exact h.trans h2

theorem inner_isRect (hu : g.cell ∣ u) (hv : g.cell ∣ v) (h : u < v) : g.IsRect (g.inner u v).1 (g.inner u v).2 := by
  have h1 := le_ceilTo g.row_pos u
  have h2 := floorTo_le g.row v
  have h3 := lt_floorTo_add g.row_pos v
  have hfirst : g.cell ∣ ceilTo g.row u := g.cell_dvd_row.trans (dvd_ceilTo _ _)
  unfold inner
  dsimp only
  split_ifs with hlast hrows hlarger
  · have hle : v ≤ ceilTo g.row u := by
      have := add_le_of_dvd_of_lt (dvd_floorTo _ _) (dvd_ceilTo _ _) hlast
      omega
    exact ⟨h, hu, hv, Or.inl (inRow_of_le_ceilTo hle)⟩
  · exact ⟨hrows, hfirst, g.cell_dvd_row.trans (dvd_floorTo _ _), Or.inr ⟨dvd_ceilTo _ _, dvd_floorTo _ _⟩⟩
  · exact ⟨by dsimp only; omega, hu, hfirst, Or.inl (inRow_of_le_ceilTo Nat.le.refl)⟩
  · refine ⟨by dsimp only; omega, hfirst, hv, Or.inl ?_⟩
    unfold InRow
    rw [floorTo_of_dvd (dvd_ceilTo _ _)]
    omega

variable (g) in
/-- A rectangle by its place in the grid and its size. -/
structure Block where
  firstRow : Nat
  firstColumn : Nat
  rows : Nat
  columns : Nat
  rows_pos : 0 < rows
  columns_pos : 0 < columns
  fits : firstColumn + columns ≤ g.columns
  gapless : rows = 1 ∨ columns = g.columns

namespace Block

def lower (b : g.Block) : Nat := g.cell * (b.firstRow * g.columns + b.firstColumn)

def upper (b : g.Block) : Nat := b.lower + g.cell * (b.rows * b.columns)

variable (b : g.Block)

theorem lower_lt_upper : b.lower < b.upper :=
  Nat.lt_add_of_pos_right (Nat.mul_pos g.cell_pos (Nat.mul_pos b.rows_pos b.columns_pos))

theorem firstColumn_lt : b.firstColumn < g.columns := by
  have h1 := b.fits
  have h2 := b.columns_pos
  omega

theorem firstCell_div : (b.firstRow * g.columns + b.firstColumn) / g.columns = b.firstRow := by
  rw [Nat.mul_comm, Nat.mul_add_div g.columns_pos, Nat.div_eq_of_lt b.firstColumn_lt, Nat.add_zero]

theorem firstCell_mod : (b.firstRow * g.columns + b.firstColumn) % g.columns = b.firstColumn := by
  rw [Nat.mul_comm, Nat.mul_add_mod, Nat.mod_eq_of_lt b.firstColumn_lt]

theorem firstColumn_eq (h : b.columns = g.columns) : b.firstColumn = 0 := by
  have := b.fits
  omega

theorem cells_le :
    b.firstRow * g.columns + b.firstColumn + b.rows * b.columns ≤ (b.firstRow + b.rows) * g.columns := by
  rw [Nat.add_mul]
  rcases b.gapless with h | h
  · have := b.fits
    rw [h, Nat.one_mul, Nat.one_mul]
    omega
  · rw [b.firstColumn_eq h, h]
    omega

theorem upper_le : b.upper ≤ g.row * (b.firstRow + b.rows) :=
  calc b.upper = g.cell * (b.firstRow * g.columns + b.firstColumn + b.rows * b.columns) := by
        unfold upper lower
        ring
    _ ≤ g.cell * ((b.firstRow + b.rows) * g.columns) := Nat.mul_le_mul_left _ b.cells_le
    _ = g.row * (b.firstRow + b.rows) := by
        unfold row
        ring

theorem cells_eq : (b.rows - 1) * g.columns + b.columns = b.rows * b.columns := by
  rcases b.gapless with h | h
  · rw [h, Nat.sub_self, Nat.zero_mul, Nat.zero_add, Nat.one_mul]
  · rw [h, Nat.sub_one_mul]
    exact Nat.sub_add_cancel (Nat.le_mul_of_pos_left _ b.rows_pos)

theorem lt_upper : g.row * (b.firstRow + b.rows - 1) < b.upper := by
  have hrows := b.rows_pos
  have hcolumns := b.columns_pos
  have hcells : (b.firstRow + b.rows - 1) * g.columns <
      b.firstRow * g.columns + b.firstColumn + b.rows * b.columns := by
    rcases b.gapless with h | h
    · rw [h, Nat.add_sub_cancel, Nat.one_mul]
      omega
    · have h1 : b.firstRow + b.rows = b.firstRow + b.rows - 1 + 1 := by omega
      have h2 : (b.firstRow + b.rows) * g.columns = (b.firstRow + b.rows - 1) * g.columns + g.columns := by
        conv_lhs => rw [h1]
        ring
      rw [Nat.add_mul] at h2
      have := g.columns_pos
      rw [h]
      omega
  calc g.row * (b.firstRow + b.rows - 1) = g.cell * ((b.firstRow + b.rows - 1) * g.columns) := by
        unfold row
        ring
    _ < g.cell * (b.firstRow * g.columns + b.firstColumn + b.rows * b.columns) :=
        Nat.mul_lt_mul_of_pos_left hcells g.cell_pos
    _ = b.upper := by
        unfold upper lower
        ring

theorem rows_le {n : Nat} (h : b.upper ≤ g.row * n) : b.firstRow + b.rows ≤ n := by
  have h1 := b.lt_upper
  have h2 : b.firstRow + b.rows - 1 < n := Nat.lt_of_mul_lt_mul_left (h1.trans_le h)
  have := b.rows_pos
  omega

/-- A block of the first `n` rows from their first place to their last one is all of them. -/
theorem eq_of_whole {n : Nat} (hlower : b.lower = 0) (hupper : b.upper = g.row * n) :
    b.rows = n ∧ b.columns = g.columns := by
  have hcells : b.rows * b.columns = g.columns * n := by
    unfold upper row at hupper
    rw [hlower, Nat.zero_add, Nat.mul_assoc] at hupper
    exact Nat.eq_of_mul_eq_mul_left g.cell_pos hupper
  have hfits : b.columns ≤ g.columns := by
    have := b.fits
    omega
  rcases b.gapless with h | h
  · have hle : g.columns * n ≤ g.columns * 1 := by
      rw [← hcells, h]
      omega
    have hn : n ≤ 1 := Nat.le_of_mul_le_mul_left hle g.columns_pos
    have hpos := Nat.mul_pos b.rows_pos b.columns_pos
    have hn1 : n = 1 := by
      rcases Nat.eq_zero_or_pos n with h0 | h0
      · rw [hcells, h0] at hpos
        omega
      · omega
    rw [h, hn1] at hcells
    omega
  · refine ⟨?_, h⟩
    rw [h, Nat.mul_comm] at hcells
    exact Nat.eq_of_mul_eq_mul_left g.columns_pos hcells

end Block

private theorem IsRect.rowBlock (h : g.IsRect u v) (hrow : g.InRow u v) :
    ∃ b : g.Block, b.lower = u ∧ b.upper = v ∧ b.rows = 1 := by
  obtain ⟨k, rfl⟩ := h.lower
  obtain ⟨m, rfl⟩ := h.upper
  have hlt : k < m := Nat.lt_of_mul_lt_mul_left h.lt
  have hk : k = k / g.columns * g.columns + k % g.columns := by
    rw [Nat.mul_comm]
    exact (Nat.div_add_mod k g.columns).symm
  have hfloor : floorTo g.row (g.cell * k) + g.row = g.cell * (k / g.columns * g.columns + g.columns) := by
    unfold floorTo row
    rw [Nat.mul_div_mul_left _ _ g.cell_pos]
    ring
  have hm : m ≤ k / g.columns * g.columns + g.columns := by
    unfold InRow at hrow
    rw [hfloor] at hrow
    exact Nat.le_of_mul_le_mul_left hrow g.cell_pos
  refine ⟨⟨k / g.columns, k % g.columns, 1, m - k, Nat.one_pos, by omega, by omega, Or.inl rfl⟩, ?_, ?_, rfl⟩
  · unfold Block.lower
    rw [← hk]
  · unfold Block.upper Block.lower
    have hm' : m = k + (m - k) := by omega
    rw [← hk, Nat.one_mul, ← Nat.mul_add, ← hm']

private theorem IsRect.rowsBlock (h : g.IsRect u v) (hu : g.row ∣ u) (hv : g.row ∣ v) :
    ∃ b : g.Block, b.lower = u ∧ b.upper = v ∧ b.columns = g.columns := by
  obtain ⟨k, rfl⟩ := hu
  obtain ⟨m, rfl⟩ := hv
  have hlt : k < m := Nat.lt_of_mul_lt_mul_left h.lt
  refine ⟨⟨k, 0, m - k, g.columns, by omega, g.columns_pos, by omega, Or.inr rfl⟩, ?_, ?_, rfl⟩
  · unfold Block.lower row
    ring
  · have hm : m = k + (m - k) := by omega
    unfold Block.upper Block.lower row
    conv_rhs => rw [hm]
    ring

theorem exists_enclosingBlock (g : RowGrid) (h : u < v) :
    ∃ b : g.Block, (b.lower, b.upper) = g.enclosing u v ∧
      if g.InRow u v then b.rows = 1 else b.columns = g.columns := by
  have hrect := g.enclosing_isRect h
  by_cases hrow : g.InRow u v
  · have henc : g.enclosing u v = (floorTo g.cell u, ceilTo g.cell v) := if_pos hrow
    rw [henc] at hrect ⊢
    have hin : g.InRow (floorTo g.cell u) (ceilTo g.cell v) := by
      unfold InRow
      rw [floorTo_row_floorTo_cell]
      exact hrow.ceilTo
    obtain ⟨b, h1, h2, h3⟩ := hrect.rowBlock hin
    exact ⟨b, by rw [h1, h2], by rwa [if_pos hrow]⟩
  · have henc : g.enclosing u v = (floorTo g.row u, ceilTo g.row v) := if_neg hrow
    rw [henc] at hrect ⊢
    obtain ⟨b, h1, h2, h3⟩ := hrect.rowsBlock (dvd_floorTo _ _) (dvd_ceilTo _ _)
    exact ⟨b, by rw [h1, h2], by rwa [if_neg hrow]⟩

theorem Block.isRect_add (b : g.Block) {part : RowGrid} (hcell : part.cell = g.cell)
    (hcolumns : part.columns = b.columns) (h : part.IsRect u v) (hv : v ≤ g.cell * (b.rows * b.columns)) :
    g.IsRect (b.lower + u) (b.lower + v) where
  lt := Nat.add_lt_add_left h.lt _
  lower := Nat.dvd_add (Nat.dvd_mul_right _ _) (hcell ▸ h.lower)
  upper := Nat.dvd_add (Nat.dvd_mul_right _ _) (hcell ▸ h.upper)
  shape := by
    rcases b.gapless with hrows | hwhole
    · -- the block lies in one row
      left
      have hupper := b.upper_le
      have hrow : g.row * b.firstRow ≤ floorTo g.row (b.lower + u) := by
        refine (le_floorTo_iff g.row_pos (Nat.dvd_mul_right _ _)).mpr ?_
        have : g.row * b.firstRow ≤ b.lower := by
          unfold row lower
          rw [Nat.mul_assoc, Nat.mul_comm g.columns]
          exact Nat.mul_le_mul_left _ (Nat.le_add_right _ _)
        omega
      unfold InRow
      rw [hrows, Nat.mul_add, Nat.mul_one] at hupper
      unfold upper at hupper
      omega
    · -- the rows of the block are rows of the grid
      have hsame : part.row = g.row := by
        unfold row
        rw [hcell, hcolumns, hwhole]
      have hlower : g.row ∣ b.lower := by
        unfold lower row
        rw [b.firstColumn_eq hwhole, Nat.add_zero, Nat.mul_comm b.firstRow, ← Nat.mul_assoc]
        exact Nat.dvd_mul_right _ _
      rcases h.shape with hrow | ⟨hu, hv⟩
      · left
        unfold InRow at hrow ⊢
        rw [hsame] at hrow
        rw [floorTo_add_of_dvd g.row_pos hlower]
        omega
      · rw [hsame] at hu hv
        exact Or.inr ⟨Nat.dvd_add hlower hu, Nat.dvd_add hlower hv⟩

end RowGrid

end SweepDSEmu
