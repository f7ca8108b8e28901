import LabelLayout.Print.Sheet
import LabelLayout.Proofs.Except
import Mathlib.Data.List.Chain
import Mathlib.Data.List.Flatten
import Mathlib.Data.List.Range
import Mathlib.Tactic.Ring

/-!
# `LabelLayout.Proofs.Print.Sheet`: how copies lie on a sheet

The copies of a label are numbered along the rows of a sheet, and the column and the row of a
copy are the remainder and the quotient of its number. Taken by number the copies are the rows
one behind the other, the last of them perhaps not full (`origins_layOut`).

Along each axis a label stands at a `place`. The places are one label and one margin apart
(`place_succ`), and the sheet ends one margin behind the last label (`lineExtent_succ`), so the
labels of a line do not overlap and the sheet is no longer than they need.

`sheet_isTight` says this of every sheet that is laid out: its copies form a grid (`IsGrid`), no
pixel belongs to two of them, they keep within the margins, and no smaller sheet holds them.
-/

set_option autoImplicit false

namespace LabelLayout.Print

/-! ### Places along one axis -/

section

variable {extent : Int} {margin i j count : Nat}

/-- Where the label with a number begins. -/
def place (extent : Int) (margin number : Nat) : Int := margin + number * (extent + margin)

theorem place_zero (extent : Int) (margin : Nat) : place extent margin 0 = margin := by
  rw [place, Nat.cast_zero, Int.zero_mul, Int.add_zero]

/-- The next label begins one margin behind the end of a label. -/
theorem place_succ (extent : Int) (margin number : Nat) :
    place extent margin (number + 1) = place extent margin number + extent + margin := by
  rw [place, place, Nat.cast_succ]
  ring

/-- A line of labels ends one margin behind the end of the last one. -/
theorem lineExtent_succ (extent : Int) (margin last : Nat) :
    lineExtent (last + 1) extent margin = place extent margin last + extent + margin := by
  rw [lineExtent, place, Nat.cast_succ]
  ring

theorem place_mono (margin : Nat) (h : 0 ≤ extent) (hij : i ≤ j) :
    place extent margin i ≤ place extent margin j := by
  have hstep : (i : Int) * (extent + margin) ≤ j * (extent + margin) :=
    Int.mul_le_mul_of_nonneg_right (by exact_mod_cast hij) (by omega)
  simp only [place]
  omega

/-- A label ends before the next ones begin. -/
theorem place_add_le (margin : Nat) (h : 0 ≤ extent) (hij : i < j) :
    place extent margin i + extent ≤ place extent margin j := by
  have hnext := place_mono margin h (Nat.succ_le_of_lt hij)
  rw [place_succ] at hnext
  omega

/-- A pixel belongs to one label of a line at most. -/
theorem eq_of_mem_place {pixel : Int}
    (hi : place extent margin i ≤ pixel ∧ pixel < place extent margin i + extent)
    (hj : place extent margin j ≤ pixel ∧ pixel < place extent margin j + extent) : i = j := by
  have hextent : 0 ≤ extent := by omega
  rcases Nat.lt_trichotomy i j with hlt | heq | hgt
  · have happart := place_add_le margin hextent hlt
    omega
  · exact heq
  · have happart := place_add_le margin hextent hgt
    omega

/-- A label of a line lies within its margins. -/
theorem place_within (margin : Nat) (h : 0 ≤ extent) (hi : i < count) :
    margin ≤ place extent margin i ∧
      place extent margin i + extent ≤ lineExtent count extent margin - margin := by
  obtain ⟨last, rfl⟩ : ∃ last, count = last + 1 := ⟨count - 1, by omega⟩
  have hfirst := place_mono margin h (Nat.zero_le i)
  have hlast := place_mono margin h (Nat.le_of_lt_succ hi)
  rw [place_zero] at hfirst
  rw [lineExtent_succ]
  omega

end

/-! ### Rows -/

section

variable {copies perRow : Nat}

theorem rowsFor_eq (hcopies : 0 < copies) (hperRow : 0 < perRow) :
    rowsFor copies perRow = (copies - 1) / perRow + 1 := by
  rw [rowsFor, ← Nat.add_div_right _ hperRow]
  congr 1
  omega

/-- How many copies stand in a row, the rows being counted from zero. -/
def inRow (copies perRow row : Nat) : Nat := min perRow (copies - row * perRow)

theorem inRow_pos (hcopies : 0 < copies) (hperRow : 0 < perRow) {row : Nat}
    (hrow : row < rowsFor copies perRow) : 0 < inRow copies perRow row := by
  rw [rowsFor_eq hcopies hperRow] at hrow
  have hlast : row * perRow ≤ copies - 1 := by
    rw [← Nat.le_div_iff_mul_le hperRow]
    omega
  rw [inRow]
  omega

/-- A row with another one below it is full. -/
theorem inRow_of_succ_lt (hcopies : 0 < copies) (hperRow : 0 < perRow) {row : Nat}
    (hrow : row + 1 < rowsFor copies perRow) : inRow copies perRow row = perRow := by
  rw [rowsFor_eq hcopies hperRow] at hrow
  have hnext : (row + 1) * perRow ≤ copies - 1 := by
    rw [← Nat.le_div_iff_mul_le hperRow]
    omega
  rw [Nat.succ_mul] at hnext
  rw [inRow]
  omega

/-- The first rows hold the first copies. -/
theorem flatMap_inRow (copies perRow rows : Nat) :
    (List.range rows).flatMap (fun row =>
      (List.range (inRow copies perRow row)).map (row * perRow + ·)) =
      List.range (min copies (rows * perRow)) := by
  induction rows with
  | zero => rw [Nat.zero_mul, Nat.min_zero]; rfl
  | succ rows ih =>
    rw [List.range_succ, List.flatMap_append, ih, List.flatMap_singleton, Nat.succ_mul]
    rcases Nat.le_total copies (rows * perRow) with hfew | hmore
    · have hnone : inRow copies perRow rows = 0 := by rw [inRow]; omega
      rw [hnone, List.range_zero, List.map_nil, List.append_nil]
      congr 1
      omega
    · have hsum :
          min copies (rows * perRow + perRow) = rows * perRow + inRow copies perRow rows := by
        rw [inRow]
        omega
      rw [Nat.min_eq_right hmore, hsum, List.range_add]

/-- The rows hold all copies. -/
theorem flatMap_rowsFor (hcopies : 0 < copies) (hperRow : 0 < perRow) :
    (List.range (rowsFor copies perRow)).flatMap (fun row =>
      (List.range (inRow copies perRow row)).map (row * perRow + ·)) = List.range copies := by
  have hall : copies - 1 < perRow * rowsFor copies perRow := by
    rw [rowsFor_eq hcopies hperRow]
    exact Nat.lt_mul_div_succ _ hperRow
  rw [flatMap_inRow, Nat.mul_comm]
  congr 1
  omega

end

/-! ### The grid -/

/-- Boxes of one size by their corners, row by row. The rows have at most so many boxes, and all
but the last have so many. In a row each box stands one margin to the right of the one before
it, and each box of the next row stands one margin below the one above it. -/
structure IsGrid (width height : Int) (perRow margin : Nat) (rows : List (List (Int × Int))) :
    Prop where
  length : ∀ row ∈ rows, 0 < row.length ∧ row.length ≤ perRow
  across : ∀ row ∈ rows, row.IsChain fun p q => q = (p.1 + width + margin, p.2)
  down : rows.IsChain fun upper lower => upper.length = perRow ∧
    List.Forall₂ (fun p q => q = (p.1, p.2 + height + margin)) (upper.take lower.length) lower

/-- A pixel belongs to the box at a corner. -/
def Covers (width height : Int) (corner pixel : Int × Int) : Prop :=
  (corner.1 ≤ pixel.1 ∧ pixel.1 < corner.1 + width) ∧
    (corner.2 ≤ pixel.2 ∧ pixel.2 < corner.2 + height)

/-- A sheet of some width and height holds boxes with a margin around them. -/
def Holds (width height : Int) (margin : Nat) (corners : List (Int × Int)) (across down : Int) :
    Prop :=
  ∀ p ∈ corners, (margin ≤ p.1 ∧ p.1 + width ≤ across - margin) ∧
    (margin ≤ p.2 ∧ p.2 + height ≤ down - margin)

section

variable {width height : Int} {copies perRow margin : Nat}

/-- The corners of the copies in a row. -/
def rowOrigins (width height : Int) (copies perRow margin row : Nat) : List (Int × Int) :=
  (List.range (inRow copies perRow row)).map fun column =>
    (place width margin column, place height margin row)

theorem length_rowOrigins (width height : Int) (copies perRow margin row : Nat) :
    (rowOrigins width height copies perRow margin row).length = inRow copies perRow row := by
  rw [rowOrigins, List.length_map, List.length_range]

/-- The copies by number are the copies row by row. -/
theorem origins_layOut (hcopies : 0 < copies) (hperRow : 0 < perRow) :
    (layOut width height copies perRow margin).origins =
      ((List.range (rowsFor copies perRow)).map
        (rowOrigins width height copies perRow margin)).flatten := by
  show (List.range copies).map (origin width height perRow margin) = _
  rw [← flatMap_rowsFor hcopies hperRow, List.map_flatMap, List.flatMap_def]
  refine congrArg List.flatten (List.map_congr_left fun row _ => ?_)
  rw [rowOrigins, List.map_map]
  refine List.map_congr_left fun column hcolumn => ?_
  have hlt : column < perRow :=
    Nat.lt_of_lt_of_le (List.mem_range.mp hcolumn) (Nat.min_le_left _ _)
  show origin width height perRow margin (row * perRow + column) = _
  have hmod : (row * perRow + column) % perRow = column := by
    rw [Nat.mul_comm, Nat.mul_add_mod, Nat.mod_eq_of_lt hlt]
  have hdiv : (row * perRow + column) / perRow = row := by
    rw [Nat.mul_comm, Nat.mul_add_div hperRow, Nat.div_eq_of_lt hlt, Nat.add_zero]
  rw [origin, hmod, hdiv]
  rfl

theorem isGrid_rowOrigins (hcopies : 0 < copies) (hperRow : 0 < perRow) :
    IsGrid width height perRow margin ((List.range (rowsFor copies perRow)).map
      (rowOrigins width height copies perRow margin)) where
  length := by
    simp only [List.forall_mem_map, List.mem_range, length_rowOrigins]
    exact fun row hrow => ⟨inRow_pos hcopies hperRow hrow, Nat.min_le_left _ _⟩
  across := by
    simp only [List.forall_mem_map, rowOrigins, List.isChain_map, List.isChain_range, place_succ,
      implies_true]
  down := by
    rw [List.isChain_map, List.isChain_range]
    intro row hrow
    have hfull : inRow copies perRow row = perRow :=
      inRow_of_succ_lt hcopies hperRow (by omega)
    have hbelow : inRow copies perRow (row + 1) ≤ perRow := Nat.min_le_left _ _
    rw [length_rowOrigins, length_rowOrigins, hfull]
    refine ⟨rfl, ?_⟩
    rw [rowOrigins, rowOrigins, hfull, ← List.map_take, List.take_range, Nat.min_eq_left hbelow,
      List.forall₂_map_left_iff, List.forall₂_map_right_iff, List.forall₂_same]
    exact fun column _ => Prod.ext rfl (place_succ height margin row)

/-- A pixel belongs to one copy at most. -/
theorem eq_of_covers_origin {i j : Nat} {pixel : Int × Int}
    (hi : Covers width height (origin width height perRow margin i) pixel)
    (hj : Covers width height (origin width height perRow margin j) pixel) : i = j := by
  have hcolumn : i % perRow = j % perRow := eq_of_mem_place hi.1 hj.1
  have hrow : i / perRow = j / perRow := eq_of_mem_place hi.2 hj.2
  rw [← Nat.div_add_mod i perRow, hrow, hcolumn, Nat.div_add_mod]

theorem holds_layOut (hwidth : 0 ≤ width) (hheight : 0 ≤ height) (hperRow : 0 < perRow)
    {s : Sheet} (hs : s = layOut width height copies perRow margin) :
    Holds width height s.margin s.origins s.width s.height := by
  subst hs
  intro p hp
  obtain ⟨i, hi, rfl⟩ := List.mem_map.mp hp
  have hi : i < copies := List.mem_range.mp hi
  have hcolumn : i % perRow < min perRow copies :=
    Nat.lt_min.mpr ⟨Nat.mod_lt _ hperRow, Nat.lt_of_le_of_lt (Nat.mod_le _ _) hi⟩
  have hrow : i / perRow < rowsFor copies perRow := by
    rw [rowsFor_eq (by omega) hperRow, Nat.lt_succ_iff]
    exact Nat.div_le_div_right (by omega)
  exact ⟨place_within margin hwidth hcolumn, place_within margin hheight hrow⟩

/-- The last label of the first row stands at the right margin of the sheet. -/
theorem exists_reaches_right (hcopies : 0 < copies) (hperRow : 0 < perRow) {s : Sheet}
    (hs : s = layOut width height copies perRow margin) :
    ∃ p ∈ s.origins, p.1 + width = s.width - s.margin := by
  subst hs
  obtain ⟨last, hlast⟩ : ∃ last, min perRow copies = last + 1 :=
    ⟨min perRow copies - 1, by omega⟩
  refine ⟨origin width height perRow margin last,
    List.mem_map_of_mem (List.mem_range.mpr (by omega)), ?_⟩
  show place width margin (last % perRow) + width =
    lineExtent (min perRow copies) width margin - margin
  rw [Nat.mod_eq_of_lt (by omega : last < perRow), hlast, lineExtent_succ]
  omega

/-- The last label stands at the bottom margin of the sheet. -/
theorem exists_reaches_bottom (hcopies : 0 < copies) (hperRow : 0 < perRow) {s : Sheet}
    (hs : s = layOut width height copies perRow margin) :
    ∃ p ∈ s.origins, p.2 + height = s.height - s.margin := by
  subst hs
  refine ⟨origin width height perRow margin (copies - 1),
    List.mem_map_of_mem (List.mem_range.mpr (by omega)), ?_⟩
  show place height margin ((copies - 1) / perRow) + height =
    lineExtent (rowsFor copies perRow) height margin - margin
  rw [rowsFor_eq hcopies hperRow, lineExtent_succ]
  omega

end

/-- A sheet for copies of some width and height. The copies form a grid of as many rows as the
sheet says, no pixel belongs to two of them, they keep within the margins and reach all four of
them, and every other sheet that holds them is as wide and as high at least. -/
structure Sheet.IsTight (width height : Int) (s : Sheet) : Prop where
  length : s.origins.length = s.copies
  grid : ∃ rows, s.origins = rows.flatten ∧ rows.length = s.rows ∧
    IsGrid width height s.perRow s.margin rows
  apart : s.origins.Pairwise fun p q =>
    ∀ pixel, ¬ (Covers width height p pixel ∧ Covers width height q pixel)
  holds : Holds width height s.margin s.origins s.width s.height
  first : ((s.margin : Int), (s.margin : Int)) ∈ s.origins
  right : ∃ p ∈ s.origins, p.1 + width = s.width - s.margin
  bottom : ∃ p ∈ s.origins, p.2 + height = s.height - s.margin
  least : ∀ across down, Holds width height s.margin s.origins across down →
    s.width ≤ across ∧ s.height ≤ down

section

variable {width height : Int}

theorem isTight_layOut {copies perRow : Nat} (margin : Nat) (hwidth : 0 ≤ width)
    (hheight : 0 ≤ height) (hcopies : 0 < copies) (hperRow : 0 < perRow) :
    (layOut width height copies perRow margin).IsTight width height where
  length := by rw [layOut, List.length_map, List.length_range]
  grid := ⟨_, origins_layOut hcopies hperRow, by rw [List.length_map, List.length_range]; rfl,
    isGrid_rowOrigins hcopies hperRow⟩
  apart := by
    rw [layOut, List.pairwise_map]
    exact List.pairwise_lt_range.imp fun hlt _ hboth =>
      Nat.ne_of_lt hlt (eq_of_covers_origin hboth.1 hboth.2)
  holds := holds_layOut hwidth hheight hperRow rfl
  first := by
    refine List.mem_map.mpr ⟨0, List.mem_range.mpr hcopies, ?_⟩
    show (place width margin (0 % perRow), place height margin (0 / perRow)) = _
    rw [Nat.zero_mod, Nat.zero_div, place_zero, place_zero]
    rfl
  right := exists_reaches_right hcopies hperRow rfl
  bottom := exists_reaches_bottom hcopies hperRow rfl
  least := by
    intro across down hholds
    obtain ⟨p, hp, hright⟩ := exists_reaches_right hcopies hperRow rfl
    obtain ⟨q, hq, hbottom⟩ := exists_reaches_bottom hcopies hperRow rfl
    have hwithin := (hholds p hp).1
    have hbelow := (hholds q hq).2
    exact ⟨by omega, by omega⟩

/-- Only integers within the limits are taken. -/
theorem withinLimits_eq_ok {field : String} {low high n : Nat} {got : Datum} :
    withinLimits field low high got = .ok n ↔ got = .num (.int n) ∧ low ≤ n ∧ n ≤ high := by
  constructor
  · intro h
    unfold withinLimits at h
    split at h
    case h_1 k =>
      split at h
      case isTrue hk =>
        cases h
        refine ⟨?_, by omega, by omega⟩
        rw [Int.toNat_of_nonneg (by omega)]
      case isFalse => cases h
    case h_2 => cases h
  · rintro ⟨rfl, hlow, hhigh⟩
    rw [withinLimits, if_pos (by omega), Int.toNat_natCast]

/-- A sheet is laid out from three integers within their limits. -/
theorem sheet_eq_ok {copies perRow margin : Datum} {s : Sheet} :
    sheet width height copies perRow margin = .ok s ↔ ∃ c r m : Nat,
      (copies = .num (.int c) ∧ 1 ≤ c ∧ c ≤ 100) ∧ (perRow = .num (.int r) ∧ 1 ≤ r ∧ r ≤ 4) ∧
      (margin = .num (.int m) ∧ 0 ≤ m ∧ m ≤ 50) ∧ layOut width height c r m = s := by
  simp only [sheet, bind_eq_ok, pure_eq_ok, withinLimits_eq_ok, exists_and_left]

/-- Every sheet has the copies, the number in a row and the margin that were asked for, and fits
its copies tightly. -/
theorem sheet_isTight {copies perRow margin : Datum} {s : Sheet} (hwidth : 0 ≤ width)
    (hheight : 0 ≤ height) (h : sheet width height copies perRow margin = .ok s) :
    (copies = .num (.int s.copies) ∧ perRow = .num (.int s.perRow) ∧
      margin = .num (.int s.margin)) ∧ s.IsTight width height := by
  obtain ⟨c, r, m, ⟨rfl, hc, -⟩, ⟨rfl, hr, -⟩, ⟨rfl, -, -⟩, rfl⟩ := sheet_eq_ok.mp h
  exact ⟨⟨rfl, rfl, rfl⟩, isTight_layOut m hwidth hheight hc hr⟩

/-- Five copies, two in a row, leave the last row with one. -/
theorem sheet_isTight_sample :
    (0 : Int) ≤ 406 ∧ (0 : Int) ≤ 203 ∧
      sheet 406 203 (.num (.int 5)) (.num (.int 2)) (.num (.int 10)) =
        .ok (layOut 406 203 5 2 10) ∧
      (layOut 406 203 5 2 10).rows = 3 ∧ (layOut 406 203 5 2 10).IsTight 406 203 :=
  ⟨by decide, by decide, by rfl, by decide, (sheet_isTight (by decide) (by decide) (by rfl :
    sheet 406 203 (.num (.int 5)) (.num (.int 2)) (.num (.int 10)) =
      .ok (layOut 406 203 5 2 10))).2⟩

end

end LabelLayout.Print
