import LabelLayout.Element.Supply
import LabelLayout.Proofs.Geometry.Hit
import LabelLayout.Proofs.Geometry.Selection

/-!
# `LabelLayout.Proofs.Geometry.Translate`: geometry follows a translation

On whole coordinates nothing rounds, so a translation takes an element exactly as far as it
says, and all that is read off an element goes along: its box, the points in the box, and the
box around a selection (`Geometry.translate_spec`). Translations add up and can be taken back,
because so far further on there is one element only (`Element.IsMoved.unique`). The extent of a
line, which is derived anew from its ends, comes out as it was.

A copy is shifted by a path of its own, without the look at whether there is anywhere to go. It
ends up at the same element under its fresh id.
-/

set_option autoImplicit false

namespace LabelLayout

open Scalar.Reading (integer isFaithful_integer)

/-! ### Boxes of whole coordinates -/

namespace Bounds

/-- The box with these edges. -/
def ofInt (left top right bottom : Int) : Bounds Number :=
  ⟨.int left, .int top, .int right, .int bottom⟩

variable {left top right bottom a b : Int} {box : Bounds Number}

theorem exists_ofInt (h : box.IsCovered integer) :
    ∃ left top right bottom, box = ofInt left top right bottom := by
  obtain ⟨left, top, right, bottom⟩ := box
  obtain ⟨⟨l, rfl⟩, ⟨t, rfl⟩, ⟨r, rfl⟩, ⟨m, rfl⟩⟩ := h
  exact ⟨l, t, r, m, rfl⟩

end Bounds

/-- A whole number so much larger than another one is their sum. -/
theorem Scalar.Reading.IsShifted.eq_int {m a : Int} {c : Number}
    (h : integer.IsShifted a (.int m) c) : c = .int (m + a) :=
  h.unique isFaithful_integer ⟨⟨m + a, rfl⟩, by simp [integer]⟩

namespace Bounds

variable {left top right bottom a b : Int} {box : Bounds Number}

theorem IsShifted.eq_ofInt (h : (ofInt left top right bottom).IsShifted integer a b box) :
    box = ofInt (left + a) (top + b) (right + a) (bottom + b) := by
  show (⟨box.left, box.top, box.right, box.bottom⟩ : Bounds Number) = _
  rw [h.left.eq_int, h.top.eq_int, h.right.eq_int, h.bottom.eq_int]
  rfl

/-- A shifted point lies in a shifted box as it lay in the box. -/
theorem contains_ofInt_add (x y : Int) :
    (ofInt (left + a) (top + b) (right + a) (bottom + b)).contains (.int (x + a)) (.int (y + b)) =
      (ofInt left top right bottom).contains (.int x) (.int y) := by
  have hle (m n k : Int) : Scalar.le (Number.int (m + k)) (.int (n + k)) =
      Scalar.le (Number.int m) (.int n) := by
    rw [Bool.eq_iff_iff]
    exact Number.int_le_int.trans ((Int.add_le_add_iff_right k).trans Number.int_le_int.symm)
  simp only [contains, spansX, spansY, ofInt, hle]

/-- Around some boxes there is one box. -/
theorem IsAround.unique {boxes : List (Bounds Rat)} {around around' : Bounds Rat}
    (h : IsAround boxes around) (h' : IsAround boxes around') : around' = around :=
  eq_iff_forall_direction.mpr fun direction =>
    ⟨Option.some.inj ((h' direction).1.symm.trans (h direction).1),
      Option.some.inj ((h' direction).2.symm.trans (h direction).2)⟩

/-- Around shifted boxes there is a shifted box. -/
theorem IsAround.shifted {boxes : List (Bounds Rat)} {around : Bounds Rat}
    (h : IsAround boxes around) (dx dy : Rat) :
    IsAround (boxes.map (shifted dx dy)) (around.shifted dx dy) := by
  intro direction
  obtain ⟨hmin, hmax⟩ := h direction
  rw [List.min?_eq_some_iff, List.forall_mem_map, List.mem_map] at hmin
  rw [List.max?_eq_some_iff, List.forall_mem_map, List.mem_map] at hmax
  obtain ⟨⟨first, hfirst, hlead⟩, hmin⟩ := hmin
  obtain ⟨⟨last, hlast, htrail⟩, hmax⟩ := hmax
  rw [List.map_map, List.map_map, List.min?_eq_some_iff, List.max?_eq_some_iff,
    List.forall_mem_map, List.forall_mem_map, List.mem_map, List.mem_map]
  cases direction with
  | horizontal =>
    exact ⟨⟨⟨first, hfirst, congrArg (· + dx) hlead⟩, fun b hb => add_le_add_left (hmin b hb) dx⟩,
      ⟨last, hlast, congrArg (· + dx) htrail⟩, fun b hb => add_le_add_left (hmax b hb) dx⟩
  | vertical =>
    exact ⟨⟨⟨first, hfirst, congrArg (· + dy) hlead⟩, fun b hb => add_le_add_left (hmin b hb) dy⟩,
      ⟨last, hlast, congrArg (· + dy) htrail⟩, fun b hb => add_le_add_left (hmax b hb) dy⟩

end Bounds

/-! ### Translations -/

section

variable {e moved : Element Number} {a b : Int}

namespace Element

/-- The second element is the first one translated by `(a, b)`, and what is read off it has gone
as far. -/
structure Translates (a b : Int) (e moved : Element Number) : Prop where
  /-- It is where the translation ends up. -/
  translate_eq : e.translate (.int a) (.int b) = .ok moved
  /-- A translation that follows and one as far as both end up at one element. -/
  translate_add : ∀ c d : Int, ∃ further, moved.translate (.int c) (.int d) = .ok further ∧
    e.translate (.int (a + c)) (.int (b + d)) = .ok further
  /-- The way back leads to the element itself. -/
  translate_neg : moved.translate (.int (-a)) (.int (-b)) = .ok e
  /-- Its box is as far further on, as wide and as high. -/
  bounds : ∃ left top right bottom : Int, e.bounds = .ok (.ofInt left top right bottom) ∧
    moved.bounds = .ok (.ofInt (left + a) (top + b) (right + a) (bottom + b)) ∧
    (Bounds.ofInt (left + a) (top + b) (right + a) (bottom + b)).width =
      (Bounds.ofInt left top right bottom).width ∧
    (Bounds.ofInt (left + a) (top + b) (right + a) (bottom + b)).height =
      (Bounds.ofInt left top right bottom).height
  /-- A point as far further on lies in it as the point lay in the element. -/
  contains : ∀ x y : Int, ∃ inside, e.contains (.int x) (.int y) = .ok inside ∧
    moved.contains (.int (x + a)) (.int (y + b)) = .ok inside
  /-- A copy with this offset is the same but for the id, which is the next one. -/
  clone : ∀ supply : IdSupply, (e.clone (.num (.int a)) (.num (.int b))).run supply =
    (.ok (moved.withId (supply.idAt (supply.issued + 1))),
      { supply with issued := supply.issued + 1 })

/-- A copy is shifted by itself, and gets the next id. -/
theorem run_clone (h : e.shift (.int a) (.int b) = .ok moved) (supply : IdSupply) :
    (e.clone (.num (.int a)) (.num (.int b))).run supply =
      (.ok (moved.withId (supply.idAt (supply.issued + 1))),
        { supply with issued := supply.issued + 1 }) := by
  have hshift : e.shiftBy (.num (.int a)) (.num (.int b)) = .ok moved := h
  rw [clone, hshift]
  rfl

/-- Every element of whole coordinates and extents is translated. -/
theorem exists_translates (he : e.IsMeasured integer) (hspans : e.Spans) (a b : Int) :
    ∃ moved, e.Translates a b moved ∧ IsMoved integer a b e moved := by
  have hplaced := he.toIsPlaced
  obtain ⟨moved, htranslate, hshift, hmoved⟩ := exists_translate_int hplaced hspans a b
  have hplaced' := hmoved.isPlaced
  have hspans' : moved.Spans := hmoved.spans isFaithful_integer not_false hplaced hspans
  obtain ⟨box, box', hbox, hbox', hcovered, hshifted⟩ := hmoved.exists_bounds not_false he
  obtain ⟨left, top, right, bottom, rfl⟩ := Bounds.exists_ofInt hcovered
  have hwidth := hshifted.width_eq isFaithful_integer not_false hcovered
  have hheight := hshifted.height_eq isFaithful_integer not_false hcovered
  obtain rfl := hshifted.eq_ofInt
  refine ⟨moved, ⟨htranslate, fun c d => ?_, ?_, ⟨left, top, right, bottom, hbox, hbox', hwidth,
    hheight⟩, fun x y => ?_, run_clone hshift⟩, hmoved⟩
  -- Two ways one after the other are one way, and that leads to one element only.
  · obtain ⟨further, hfurther, -, hmoved'⟩ := exists_translate_int hplaced' hspans' c d
    have hboth := hmoved.trans hmoved'
    refine ⟨further, hfurther, IsMoved.translate_eq ?_ hplaced hspans⟩
    exact_mod_cast hboth
  -- There and back is no way at all, and nowhere else but at the element itself.
  · obtain ⟨further, hfurther, -, hmoved'⟩ := exists_translate_int hplaced' hspans' (-a) (-b)
    have hboth : IsMoved integer 0 0 e further := by
      have htrans := hmoved.trans hmoved'
      rwa [Int.cast_neg, Int.cast_neg, add_neg_cancel, add_neg_cancel] at htrans
    rw [hfurther, hboth.unique isFaithful_integer (isMoved_zero hplaced hspans)]
  · refine ⟨_, by rw [Element.contains, hbox]; rfl, ?_⟩
    rw [Element.contains, hbox', ok_bind, Bounds.contains_ofInt_add]
    rfl

end Element

namespace Geometry

variable {elements : List (Element Number)}

/-- The box around a selection goes along with its elements. -/
theorem exists_selectionBounds_translates (hne : elements ≠ [])
    (helements : ∀ e ∈ elements, e.IsMeasured integer ∧ e.Spans) (a b : Int) :
    ∃ (moved : List (Element Number)) (left top right bottom : Int),
      (elements.mapM fun e => e.translate (.int a) (.int b)) = .ok moved ∧
      selectionBounds elements = .ok (some (.ofInt left top right bottom)) ∧
      selectionBounds moved =
        .ok (some (.ofInt (left + a) (top + b) (right + a) (bottom + b))) := by
  -- The way of each element is kept with it, along the list.
  have hyields : Yields integer.mayFail (List.Forall₂ (fun e moved => e.IsMeasured integer ∧
      Element.IsMoved integer a b e moved) elements)
      (elements.mapM fun e => e.translate (.int a) (.int b)) :=
    yields_mapM fun e he => by
      obtain ⟨moved, htranslates, hmoved⟩ :=
        Element.exists_translates (helements e he).1 (helements e he).2 a b
      rw [htranslates.translate_eq]
      exact yields_ok ⟨(helements e he).1, hmoved⟩
  obtain ⟨moved, htranslate, hmoved⟩ := hyields.exists_ok not_false
  have hmeasured : ∀ m ∈ moved, m.IsMeasured integer := fun m hm => by
    obtain ⟨e, -, he, h⟩ := exists_of_forall₂ hmoved.flip m hm
    exact h.isMeasured he
  have hne' : moved ≠ [] := by
    rintro rfl
    cases hmoved
    exact hne rfl
  obtain ⟨_, hbox, box, rfl, hcovered, haround⟩ :=
    (yields_selectionBounds hne fun e he => (helements e he).1).exists_ok not_false
  obtain ⟨_, hbox', box', rfl, hcovered', haround'⟩ :=
    (yields_selectionBounds hne' hmeasured).exists_ok not_false
  -- The boxes of the elements have gone as far, and so has the one around them.
  have hboxes : moved.map (Element.box integer) =
      (elements.map (Element.box integer)).map (Bounds.shifted a b) := by
    rw [List.map_map]
    exact map_eq_of_forall₂ (hmoved.imp fun _ _ h => h.2.box_eq)
  rw [hboxes] at haround'
  have hshifted : box.IsShifted integer a b box' :=
    Bounds.isShifted_of_map hcovered' ((haround.shifted a b).unique haround')
  obtain ⟨left, top, right, bottom, rfl⟩ := Bounds.exists_ofInt hcovered
  obtain rfl := hshifted.eq_ofInt
  exact ⟨moved, left, top, right, bottom, htranslate, hbox, hbox'⟩

/-- On whole coordinates a translation by whole numbers is as far as it says. Every element of
whole coordinates and extents is translated: translations add up, the way back leads to the
element itself, its box and the points in it go along, and a copy with the same offset differs
by its id. The box around a selection of such elements, translated one by one, goes along too. -/
theorem translate_spec (a b : Int) :
    (∀ e : Element Number, e.IsMeasured integer → e.Spans → ∃ moved, e.Translates a b moved) ∧
    ∀ elements : List (Element Number), elements ≠ [] →
      (∀ e ∈ elements, e.IsMeasured integer ∧ e.Spans) →
      ∃ (moved : List (Element Number)) (left top right bottom : Int),
        (elements.mapM fun e => e.translate (.int a) (.int b)) = .ok moved ∧
        selectionBounds elements = .ok (some (.ofInt left top right bottom)) ∧
        selectionBounds moved =
          .ok (some (.ofInt (left + a) (top + b) (right + a) (bottom + b))) := by
  refine ⟨fun e he hspans => ?_, fun elements hne helements => ?_⟩
  · obtain ⟨moved, h, -⟩ := Element.exists_translates he hspans a b
    exact ⟨moved, h⟩
  · exact exists_selectionBounds_translates hne helements a b

/-- A line from the upper right to the lower left. -/
def diagonal : Element Number where
  frame := ⟨"rule", .int 30, .int 5, .int 20, .int 20, .int 0, .bool false, .bool true⟩
  body := .line ⟨.int 10, .int 25, "#000000", .int 2, .solid⟩

/-- Taken seven to the right and three up, the line lies there with both its ends, and so does
the box around it and a bar. -/
theorem translate_spec_diagonal :
    (∃ moved, diagonal.Translates 7 (-3) moved ∧ moved.bounds = .ok (.ofInt 17 2 37 22)) ∧
    ∃ moved, ([diagonal, bar "bar" (.int 0) (.int 15)].mapM fun e =>
        e.translate (.int 7) (.int (-3))) = .ok moved ∧
      selectionBounds moved = .ok (some (.ofInt 7 (-3) 37 22)) := by
  have hdiagonal : diagonal.IsMeasured integer ∧ diagonal.Spans := by
    refine ⟨⟨⟨⟨_, rfl⟩, ⟨_, rfl⟩, ?_⟩, ⟨_, rfl⟩, ⟨_, rfl⟩⟩, ?_⟩ <;> rintro line ⟨⟩
    · exact ⟨⟨_, rfl⟩, ⟨_, rfl⟩⟩
    · rfl
  have hbar : (bar "bar" (.int 0) (.int 15)).IsMeasured integer ∧
      (bar "bar" (.int 0) (.int 15)).Spans := by
    refine ⟨⟨⟨⟨_, rfl⟩, ⟨_, rfl⟩, ?_⟩, ⟨_, rfl⟩, ⟨_, rfl⟩⟩, ?_⟩ <;> rintro line ⟨⟩
  obtain ⟨hone, hmany⟩ := translate_spec 7 (-3)
  obtain ⟨moved, hmoved⟩ := hone diagonal hdiagonal.1 hdiagonal.2
  obtain ⟨left, top, right, bottom, hbox, hbox', -⟩ := hmoved.bounds
  obtain ⟨all, left', top', right', bottom', hall, hselection, hselection'⟩ :=
    hmany [diagonal, bar "bar" (.int 0) (.int 15)] (List.cons_ne_nil _ _)
      (List.forall_mem_cons.mpr ⟨hdiagonal, List.forall_mem_singleton.mpr hbar⟩)
  refine ⟨⟨moved, hmoved, ?_⟩, all, hall, ?_⟩
  · cases hbox
    exact hbox'
  · cases hselection
    exact hselection'

end Geometry

end

end LabelLayout
