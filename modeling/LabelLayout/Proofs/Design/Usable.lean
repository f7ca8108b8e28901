import LabelLayout.Proofs.Design.RoundTrip
import LabelLayout.Proofs.Document.Move
import LabelLayout.Proofs.Geometry.Settle
import LabelLayout.Proofs.Print.Canvas

/-!
# `LabelLayout.Proofs.Design.Usable`: what a label that was loaded is good for

A loaded label has sides and a grid that are not zero or negative. That is not the same as
positive: what is no number is not negative either, and infinity is positive
(`Number.pos_iff_of_not_le`). A design file may say `NaN` and `Infinity`, and may write integers
too large for a double, which are positive and finite but must be converted when a half is added
or a coordinate is divided.

So not every loaded label has a canvas, and not every element of it can be moved over the grid.
`Document.usable_iff` says which do and which can.
-/

set_option autoImplicit false

namespace LabelLayout

open Binary64

/-- A number that is not zero or negative is positive and finite unless it is no number or
infinite. -/
theorem Number.pos_iff_of_not_le {a : Number} (h : a.le (.int 0) = false) :
    ((Number.int 0).lt a = true ∧ ∃ m, a.units? = some m) ↔
      a ≠ .float .nan ∧ a ≠ .float (.infinite false) := by
  cases ha : a.units? with
  | some m =>
    have hzero : (Number.int 0).units? = some 0 := congrArg some (Int.zero_mul _)
    have hpos : (Number.int 0).lt a = true := by
      rw [lt_iff hzero ha, ← Int.not_le, ← le_iff ha hzero, h]
      exact Bool.false_ne_true
    have hne {x : Binary64} (hx : x.units? = none) : a ≠ .float x := by
      rintro rfl
      cases hx.symm.trans ha
    exact ⟨fun _ => ⟨hne rfl, hne rfl⟩, fun _ => ⟨hpos, m, rfl⟩⟩
  | none =>
    match a with
    | .float .nan => simp
    | .float (.infinite false) => simp
    | .float (.infinite true) => cases h

/-- Nothing is in the way of the quotient of a sum by a grid that is an integer with a double, or a
double, and of a sum of integers by any grid. -/
theorem Number.canDivide_of_add {a b c grid : Number} (hpositive : grid.le (.int 0) = false)
    (h : Number.add a b = .ok c)
    (hgrid : (∀ p : Int, grid = .int p → p < leastTooLarge) ∨
      (∃ k : Int, a = .int k) ∧ ∃ l : Int, b = .int l) : c.CanDivide grid := by
  cases grid with
  | int p =>
    rcases hgrid with hlt | ⟨⟨k, rfl⟩, l, rfl⟩
    · rw [Bool.eq_false_iff, ne_eq, int_le_int, Int.not_le] at hpositive
      have hlarge := hlt p rfl
      exact .inr (ofInt_of_lt (by omega))
    · cases h
      exact .inl ⟨k + l, p, rfl, rfl⟩
  | float y => exact .inr ⟨y, rfl⟩

namespace Document

variable {d : Document Number} {e : Element Number} {dx dy : Number}

/-- With a grid of a millionth or more shown, an element within reach moves within reach, unless
the grid is an integer too large for a double and a coordinate comes to lie on it as a double. A
locked element always moves, because it stays. -/
theorem exists_moveBy_iff (hids : d.ids.Nodup) (hshown : d.settings.showGrid.truthy = true)
    (hstep : (Number.fraction 1 1000000).le d.settings.gridSize = true) (he : e ∈ d.elements)
    (hplaced : e.HasCoordinates (Number.IsWithin 1000000)) (hdx : dx.IsWithin 1000000)
    (hdy : dy.IsWithin 1000000) :
    (∃ after, d.moveBy e.id (.num dx) (.num dy) = .ok after) ↔
      e.isLocked = true ∨ (∀ p : Int, d.settings.gridSize = .int p → p < leastTooLarge) ∨
        ∀ c ∈ [e.frame.x, dx, e.frame.y, dy], ∃ n : Int, c = .int n := by
  by_cases hlocked : e.isLocked = true
  · have hstays : ∀ o, d.find? e.id = some o → o.isLocked = true := by
      intro o ho
      rwa [Option.some.inj ((find?_of_mem hids he).symm.trans ho)] at hlocked
    exact iff_of_true ⟨d, moveBy_eq_self hstays _ _⟩ (.inl hlocked)
  rw [moveBy_of_mem hids he (by simpa using hlocked)]
  simp only [hlocked, false_or, List.forall_mem_cons, Bool.false_eq_true]
  have hsettle (v : Number) : d.settle v = Geometry.snap v d.settings.gridSize := by
    rw [settle, if_pos hshown]
  constructor
  · rintro ⟨after, hmove⟩
    by_cases hlt : ∀ p : Int, d.settings.gridSize = .int p → p < leastTooLarge
    · exact .inl hlt
    · -- A coordinate that has settled on such a grid is an integer.
      simp only [not_forall, Int.not_lt] at hlt
      obtain ⟨p, hp, hlarge⟩ := hlt
      obtain ⟨x, hx, hmove⟩ := bind_eq_ok.mp hmove
      obtain ⟨y, hy, hmove⟩ := bind_eq_ok.mp hmove
      obtain ⟨x', hx', hmove⟩ := bind_eq_ok.mp hmove
      obtain ⟨y', hy', -⟩ := bind_eq_ok.mp hmove
      rw [hsettle, hp] at hx' hy'
      obtain ⟨m, rfl⟩ := Geometry.eq_int_of_snap hlarge hx'
      obtain ⟨n, rfl⟩ := Geometry.eq_int_of_snap hlarge hy'
      obtain ⟨hxInt, hdxInt⟩ := Number.add_eq_int hx
      obtain ⟨hyInt, hdyInt⟩ := Number.add_eq_int hy
      exact .inr ⟨hxInt, hdxInt, hyInt, hdyInt, List.forall_mem_nil _⟩
  · intro hgrid
    have hpositive := Geometry.le_zero_eq_false hstep
    have hlight := hplaced.mono fun a (ha : a.IsWithin 1000000) => ha.isLight
    obtain ⟨x, hx, hxWithin⟩ := hplaced.x.exists_add hdx (by decide)
    obtain ⟨y, hy, hyWithin⟩ := hplaced.y.exists_add hdy (by decide)
    obtain ⟨x', hx', hx'Light⟩ := Geometry.exists_snap hxWithin hstep
      (Number.canDivide_of_add hpositive hx (hgrid.imp_right fun h => ⟨h.1, h.2.1⟩))
    obtain ⟨y', hy', hy'Light⟩ := Geometry.exists_snap hyWithin hstep
      (Number.canDivide_of_add hpositive hy (hgrid.imp_right fun h => ⟨h.2.2.1, h.2.2.2.1⟩))
    obtain ⟨shiftx, hshiftx, hshiftxLight⟩ := hx'Light.exists_sub hlight.x (by decide) (by decide)
    obtain ⟨shifty, hshifty, hshiftyLight⟩ := hy'Light.exists_sub hlight.y (by decide) (by decide)
    obtain ⟨moved, hmoved⟩ := Element.exists_translate hlight hshiftxLight hshiftyLight (by decide)
    refine ⟨d.replaceElements [moved], ?_⟩
    simp only [moveTo, hsettle, Scalar.add, Scalar.sub, hx, hy, hx', hy', hshiftx, hshifty, hmoved,
      ok_bind]
    rfl

/-- The sides and the grid of a document that was loaded are positive and finite unless the file
says that they are no number or infinite. The document has a canvas at 1 to 10000 dots per inch
exactly when its sides are finite and each lies, multiplied by the resolution, below
`leastTooLarge`. With its grid shown, a millionth or wider, an element with coordinates up to a
million moves as far as that exactly when it is locked, or the grid is no integer from
`leastTooLarge` on, or the coordinates of its origin and the shift are integers. -/
theorem usable_iff {text : String} (himported : imported text = .ok (some d)) :
    (∀ a ∈ [d.size.width, d.size.height, d.settings.gridSize],
      ((Number.int 0).lt a = true ∧ ∃ m, a.units? = some m) ↔
        a ≠ .float .nan ∧ a ≠ .float (.infinite false)) ∧
    (∀ n : Int, 1 ≤ n → n ≤ 10000 →
      ((∃ canvas, Print.canvasSize d.size (.int n) = .ok canvas) ↔
        ∀ side ∈ [d.size.width, d.size.height],
          (∃ m, side.units? = some m) ∧ side.value * n < leastTooLarge)) ∧
    (d.settings.showGrid.truthy = true →
      (Number.fraction 1 1000000).le d.settings.gridSize = true →
      ∀ e ∈ d.elements, e.HasCoordinates (Number.IsWithin 1000000) →
      ∀ dx dy : Number, dx.IsWithin 1000000 → dy.IsWithin 1000000 →
        ((∃ after, d.moveBy e.id (.num dx) (.num dy) = .ok after) ↔
          e.isLocked = true ∨ (∀ p : Int, d.settings.gridSize = .int p → p < leastTooLarge) ∨
            ∀ c ∈ [e.frame.x, dx, e.frame.y, dy], ∃ n : Int, c = .int n)) := by
  obtain ⟨v, -, hrecord⟩ := imported_eq_some himported
  have hd := isValid_of_ofRecord hrecord
  refine ⟨?_, fun n hlow hhigh => ?_, fun hshown hstep e he hplaced dx dy hdx hdy => ?_⟩
  · rw [List.forall_mem_cons, List.forall_mem_cons, List.forall_mem_singleton]
    exact ⟨Number.pos_iff_of_not_le hd.size.1, Number.pos_iff_of_not_le hd.size.2,
      Number.pos_iff_of_not_le hd.settings⟩
  · exact Print.exists_canvasSize_iff hd.size (by omega) (by omega)
  · exact exists_moveBy_iff hd.ids hshown hstep he hplaced hdx hdy

/-- A design file with a width that is no number, over a grid without end. -/
def textWithoutWidth : String :=
  "\x7b\"size\": \x7b\"width\": NaN, \"height\": 1\x7d, \"elements\": [" ++
    "\x7b\"type\": \"image\", \"id\": \"logo\", \"x\": 0.5\x7d], " ++
    "\"settings\": \x7b\"gridSize\": Infinity\x7d\x7d"

/-- The document of that file. -/
def withoutWidth : Document Number where
  size := ⟨.str "Custom", .float .nan, .int 1, .custom⟩
  elements := [
    ⟨⟨"logo", .fraction 1 2, .fraction 5 1, .fraction 25 1, .fraction 25 1, .fraction 0 1,
      .bool false, .bool true⟩, .image ⟨"/placeholder-logo.png", .contain⟩⟩]
  settings := ⟨.float (.infinite false), .bool true, .bool true, .inches⟩

/-- That file is loaded, though its width is not positive and its grid not finite, and its document
has no canvas. Its element moves all the same. -/
theorem usable_withoutWidth :
    imported textWithoutWidth = .ok (some withoutWidth) ∧
      (Number.int 0).lt withoutWidth.size.width = false ∧
      withoutWidth.settings.gridSize.units? = none ∧
      (¬ ∃ canvas, Print.canvasSize withoutWidth.size (.int 203) = .ok canvas) ∧
      ∃ after, withoutWidth.moveBy "logo" (.num (.int 1)) (.num (.int (-2))) = .ok after := by
  have himported : imported textWithoutWidth = .ok (some withoutWidth) := by decide +kernel
  obtain ⟨-, hcanvas, hmove⟩ := usable_iff himported
  have hplaced : (withoutWidth.elements.head (List.cons_ne_nil _ _)).HasCoordinates
      (Number.IsWithin 1000000) := by
    refine ⟨Number.isWithin_of_abs_le ?_, Number.isWithin_of_abs_le ?_, fun line h => ?_⟩
    · decide +kernel
    · decide +kernel
    · cases h
  refine ⟨himported, rfl, rfl, ?_, ?_⟩
  · rw [hcanvas 203 (by decide) (by decide)]
    intro hsides
    obtain ⟨⟨m, hm⟩, -⟩ := hsides _ List.mem_cons_self
    cases hm
  · refine (hmove rfl (by decide +kernel) _ (List.head_mem _) hplaced (.int 1) (.int (-2))
      (Number.isWithin_int.mpr (by decide)) (Number.isWithin_int.mpr (by decide))).mpr ?_
    exact .inr (.inl fun p hp => by cases hp)

end Document

end LabelLayout
