import LabelLayout.Proofs.Document.Locked
import LabelLayout.Proofs.Print.Compile
import LabelLayout.Proofs.Scalar
import LabelLayout.Request
import Mathlib.Tactic.FieldSimp
import Mathlib.Tactic.Ring

/-!
# `LabelLayout.Proofs.Print.Drag`: a drag on screen in pixels

A drag by whole pixels is turned into a shift of the design, in percent of the label, and
the design is compiled to pixels again. Read over the rationals the factors on the way back
are those on the way there, each axis with its own extent, and a whole number of pixels
passes through the rounding (`Print.floor_percent_add`). So the element that was dragged
is drawn so many pixels further, as wide and as high as before, between the same elements as
before (`Document.compile_moveBy_screenDelta`).
-/

set_option autoImplicit false

namespace LabelLayout

open Print

/-! ### Lengths -/

namespace Print

variable {extent dpi : Rat}

/-- Whole pixels on screen, as a percentage added to another one, are as many pixels more. -/
theorem floor_percent_add (hextent : extent ≠ 0) (hdpi : dpi ≠ 0) (percent : Rat)
    (pixels : Int) :
    ((⌊(percent + pixels / dpi / extent * 100) / 100 * extent * dpi + 1 / 2⌋ : Int) : Rat) =
      (⌊percent / 100 * extent * dpi + 1 / 2⌋ : Int) + pixels := by
  have hscaled : (percent + pixels / dpi / extent * 100) / 100 * extent * dpi + 1 / 2 =
      percent / 100 * extent * dpi + 1 / 2 + pixels := by
    field_simp
    ring
  rw [hscaled, Int.floor_add_intCast, Int.cast_add]

/-- A drag on screen is a percentage of each dimension. -/
theorem screenDelta_rat {size : LabelSize Rat} (hwidth : size.width ≠ 0)
    (hheight : size.height ≠ 0) {zoom screenDpi : Rat} (hdpi : screenDpi * zoom ≠ 0)
    (dx dy : Rat) :
    screenDelta dx dy size zoom screenDpi =
      .ok (dx / (screenDpi * zoom) / size.width * 100,
        dy / (screenDpi * zoom) / size.height * 100) := by
  simp only [screenDelta, pixelsToDesign, Scalar.mul_rat, ok_bind, Scalar.div_rat hdpi,
    Scalar.div_rat hwidth, Scalar.div_rat hheight, Scalar.constant_rat, Int.cast_ofNat,
    Nat.cast_one, div_one]
  rfl

/-- A drag that is requested with numbers, at a resolution and a zoom that pass their checks,
is this one. -/
theorem screenDelta_request (dx dy : Number) (size : LabelSize Number) {zoom screenDpi : Number}
    (hzoom : zoom.le (.int 0) = false) (hdpi : screenDpi.le (.int 0) = false) :
    Request.screenDelta (.num dx) (.num dy) size (.num zoom) (.num screenDpi) =
      liftM (screenDelta dx dy size zoom screenDpi) := by
  simp only [Request.screenDelta, resolution, hdpi]
  show (if zoom.le (.int 0) = true then _ else _ : Except Error (Number × Number)) = _
  rw [hzoom]
  simp only [screenDelta, lift_bind]
  rfl

end Print

/-! ### Elements -/

namespace Element

variable {size : LabelSize Rat} {dpi : Rat}

/-- An element that lies so many pixels further, with the other end of a line. -/
def drawnFurther (m n : Int) (e : Element Rat) : Element Rat where
  frame := { e.frame with x := e.frame.x + m, y := e.frame.y + n }
  body := match e.body with
    | .line line => .line { line with x2 := line.x2 + m, y2 := line.y2 + n }
    | body => body

theorem drawnFurther_zero (e : Element Rat) : e.drawnFurther 0 0 = e := by
  obtain ⟨frame, body⟩ := e
  cases body <;> simp [drawnFurther]

section

variable {frame : Frame Rat} {body : Body Rat}

theorem drawnFurther_box (h : body.kind ≠ .line) (m n : Int) :
    drawnFurther m n ⟨frame, body⟩ = ⟨{ frame with x := frame.x + m, y := frame.y + n }, body⟩ := by
  cases body with
  | line line => exact absurd rfl h
  | _ => rfl

/-- A shift of what is no line moves its origin. -/
theorem shift_box (h : body.kind ≠ .line) (dx dy : Rat) :
    shift ⟨frame, body⟩ dx dy =
      .ok ⟨{ frame with x := frame.x + dx, y := frame.y + dy }, body⟩ := by
  cases body with
  | line line => exact absurd rfl h
  | _ => rfl

end

/-- A shift by what some pixels are in percent is one by so many pixels, once compiled. -/
theorem exists_shift_compile (hwidth : size.width ≠ 0) (hheight : size.height ≠ 0)
    (hdpi : dpi ≠ 0) (m n : Int) (e : Element Rat) :
    ∃ shifted, e.shift (m / dpi / size.width * 100) (n / dpi / size.height * 100) = .ok shifted ∧
      shifted.compile size dpi = (e.compile size dpi).map (drawnFurther m n) := by
  have hx := floor_percent_add hwidth hdpi
  have hy := floor_percent_add hheight hdpi
  obtain ⟨frame, body⟩ := e
  by_cases hline : body.kind = .line
  · cases body with
    | line line =>
      refine ⟨_, rfl, ?_⟩
      -- Both ends move alike, so the extent between them stays.
      simp only [compile, percentToPixels_rat, hx, hy, ok_bind, Frame.spanning, Scalar.sub_rat,
        add_sub_add_right_eq_sub]
      cases pointsToPixels line.strokeWidth dpi <;> rfl
    | _ => cases hline
  · refine ⟨_, shift_box hline _ _, ?_⟩
    rw [compile_box hline, compile_box hline]
    simp only [hx, hy]
    cases hbody : compileBody dpi body with
    | error f => rfl
    | ok compiled =>
      have hkind : compiled.kind ≠ .line := (compileBody_keeps hbody).1 ▸ hline
      show Except.ok _ = Except.ok (drawnFurther m n ⟨_, compiled⟩)
      rw [drawnFurther_box hkind]

/-- So is a move, which leaves an element as it is when there is nowhere to go. -/
theorem exists_translate_compile (hwidth : size.width ≠ 0) (hheight : size.height ≠ 0)
    (hdpi : dpi ≠ 0) (m n : Int) (e : Element Rat) :
    ∃ moved, e.translate (m / dpi / size.width * 100) (n / dpi / size.height * 100) = .ok moved ∧
      moved.compile size dpi = (e.compile size dpi).map (drawnFurther m n) := by
  rw [translate]
  split
  · next hstay =>
    -- No factor of the shift is zero but the pixels.
    have hzero : m = 0 ∧ n = 0 := by
      simpa [hwidth, hheight, hdpi] using hstay
    obtain ⟨rfl, rfl⟩ := hzero
    exact ⟨e, rfl, (map_eq_self fun c _ => c.drawnFurther_zero).symm⟩
  · exact exists_shift_compile hwidth hheight hdpi m n e

end Element

/-! ### Documents -/

namespace Document

variable {d : Document Rat}

/-- With the grid hidden, a move by numbers takes an element that far. -/
theorem moveBy_num (hids : d.ids.Nodup) (hgrid : d.settings.showGrid.truthy = false)
    {e : Element Rat} (he : e ∈ d.elements) (hfree : e.isLocked = false) (dx dy : Rat) :
    d.moveBy e.id (.num dx) (.num dy) =
      (e.translate dx dy).map fun moved => d.replaceElements [moved] := by
  rw [moveBy_of_mem hids he hfree]
  simp only [Scalar.add_rat, ok_bind, moveTo, settle, hgrid, Bool.false_eq_true, if_false,
    Scalar.sub_rat, add_sub_cancel_left]
  cases e.translate dx dy <;> rfl

/-- A document with one element put in its place is compiled to what it is compiled to itself
but for that element, if the latter is what becomes of the element's own. -/
theorem compile_replaceElements (hids : d.ids.Nodup) {e moved : Element Rat}
    (he : e ∈ d.elements) (hid : moved.id = e.id) {dpi : Rat} {f : Element Rat → Element Rat}
    (hmoved : moved.compile d.size dpi = (e.compile d.size dpi).map f) :
    (d.replaceElements [moved]).compile dpi = (d.compile dpi).map fun p =>
      { p with elements := p.elements.map fun c => if c.id = e.id then f c else c } := by
  have helements : (d.replaceElements [moved]).elements.mapM (Element.compile d.size dpi) =
      (d.elements.mapM (Element.compile d.size dpi)).map
        (List.map fun c => if c.id = e.id then f c else c) := by
    refine mapM_map_eq fun o ho => ?_
    rw [List.reverse_singleton, List.find?_singleton]
    -- The element itself, or one that the id does not name.
    by_cases hoid : o.id = e.id
    · obtain rfl := eq_of_id_eq hids ho he hoid
      rw [if_pos (by simpa using hid), Option.getD_some, hmoved]
      refine map_congr_of_ok fun c hc => ?_
      rw [if_pos (Element.keeps_of_compile hc).id]
    · rw [if_neg (by simpa [hid] using Ne.symm hoid), Option.getD_none]
      refine (map_eq_self fun c hc => ?_).symm
      rw [if_neg ((Element.keeps_of_compile hc).id ▸ hoid)]
  rw [compile, compile, show (d.replaceElements [moved]).size = d.size from rfl, helements]
  cases canvasSize d.size dpi with
  | error f => rfl
  | ok canvas => cases d.elements.mapM (Element.compile d.size dpi) <;> rfl

/-- What becomes of an element stands alone under its id among the compiled ones. -/
theorem exists_split_of_compile (hids : d.ids.Nodup) {e : Element Rat} (he : e ∈ d.elements)
    {dpi : Rat} {p : PrintDocument Rat} (hp : d.compile dpi = .ok p) :
    ∃ before c after, e.compile d.size dpi = .ok c ∧ p.elements = before ++ c :: after ∧
      c.id = e.id ∧ ∀ o ∈ before ++ after, o.id ≠ e.id := by
  obtain ⟨-, -, -, -, helements⟩ := compile_eq_ok.mp hp
  have hnodup : (p.elements.map Element.id).Nodup := by
    rw [map_eq_of_forall₂ (helements.imp fun o c hc => (Element.keeps_of_compile hc).id)]
    exact hids
  obtain ⟨c, hmem, hc⟩ := exists_of_forall₂ helements e he
  have hid := (Element.keeps_of_compile hc).id
  obtain ⟨before, after, hsplit⟩ := List.append_of_mem hmem
  refine ⟨before, c, after, hc, hsplit, hid, fun o ho => ?_⟩
  rw [hsplit, List.map_append, List.map_cons, List.nodup_middle, List.nodup_cons,
    ← List.map_append] at hnodup
  exact fun h => hnodup.1 (List.mem_map.mpr ⟨o, ho, h.trans hid.symm⟩)

/-- A change of the element with an id is one at its place. -/
theorem map_of_split {before after : List (Element Rat)} {c : Element Rat} {id : String}
    (hid : c.id = id) (hothers : ∀ o ∈ before ++ after, o.id ≠ id) (f : Element Rat → Element Rat) :
    (before ++ c :: after).map (fun o => if o.id = id then f o else o) =
      before ++ f c :: after := by
  have hsame (part : List (Element Rat)) (h : ∀ o ∈ part, o.id ≠ id) :
      part.map (fun o => if o.id = id then f o else o) = part :=
    (List.map_congr_left fun o ho => if_neg (h o ho)).trans (List.map_id' part)
  rw [List.forall_mem_append] at hothers
  rw [List.map_append, List.map_cons, hsame before hothers.1, hsame after hothers.2, if_pos hid]

/-- Over the rationals, a drag on screen by whole pixels is a shift of the drawn element by as
many. With the grid hidden and the element free to move, the document that was dragged in,
compiled for the zoomed screen, is the document before it, compiled for that screen, but for
the place of that element: its origin, and the other end of a line, lie so many pixels
further, and its extent is what it was.

Both are compiled unless some letter spacing is no metric. Then there is one compiled element
for each element of the document, in order and under its id, and the one that was dragged is
found among them before and after. -/
theorem compile_moveBy_screenDelta (hids : d.ids.Nodup)
    (hgrid : d.settings.showGrid.truthy = false) (hwidth : 0 < d.size.width)
    (hheight : 0 < d.size.height) {e : Element Rat} (he : e ∈ d.elements)
    (hfree : e.isLocked = false) (m n : Int) {screenDpi zoom : Rat} (hdpi : 0 < screenDpi)
    (hzoom : 0 < zoom) :
    ∃ dx dy moved, screenDelta (m : Rat) n d.size zoom screenDpi = .ok (dx, dy) ∧
      d.moveBy e.id (.num dx) (.num dy) = .ok moved ∧
      moved.compile (screenDpi * zoom) = (d.compile (screenDpi * zoom)).map (fun p =>
        { p with elements := p.elements.map fun c =>
            if c.id = e.id then c.drawnFurther m n else c }) ∧
      ((∃ p, d.compile (screenDpi * zoom) = .ok p) ↔
        ∀ o ∈ d.elements, (o.get .letterSpacing).IsMetric) ∧
      ∀ p, d.compile (screenDpi * zoom) = .ok p →
        List.Forall₂ (fun o c => o.compile d.size (screenDpi * zoom) = .ok c ∧ c.id = o.id)
          d.elements p.elements ∧
        ∃ before c after, e.compile d.size (screenDpi * zoom) = .ok c ∧
          p.elements = before ++ c :: after ∧
          moved.compile (screenDpi * zoom) =
            .ok { p with elements := before ++ c.drawnFurther m n :: after } := by
  have hscreen : screenDpi * zoom ≠ 0 := (mul_pos hdpi hzoom).ne'
  obtain ⟨moved, hmoved, hcompile⟩ :=
    e.exists_translate_compile hwidth.ne' hheight.ne' hscreen m n
  have hreplaced := compile_replaceElements hids he (Element.id_of_translate hmoved) hcompile
  refine ⟨_, _, d.replaceElements [moved],
    screenDelta_rat hwidth.ne' hheight.ne' hscreen m n, ?_, hreplaced, exists_compile_rat_iff,
    fun p hp => ⟨?_, ?_⟩⟩
  · rw [moveBy_num hids hgrid he hfree, hmoved]
    rfl
  · obtain ⟨-, -, -, -, helements⟩ := compile_eq_ok.mp hp
    exact helements.imp fun o c hc => ⟨hc, (Element.keeps_of_compile hc).id⟩
  · obtain ⟨before, c, after, hc, hsplit, hid, hothers⟩ := exists_split_of_compile hids he hp
    refine ⟨before, c, after, hc, hsplit, ?_⟩
    rw [hreplaced, hp, ← map_of_split hid hothers, ← hsplit]
    rfl

/-- A picture and a rising line on a label that is twice as wide as it is high. -/
def rationalSample : Document Rat where
  size := ⟨.str "4×2", 4, 2, .custom⟩
  elements := [
    ⟨⟨"picture", 5, 1 / 3, 25, 25, 0, .bool false, .bool true⟩, .image ⟨"/a.png", .contain⟩⟩,
    ⟨⟨"rule", 10, 90, 85, 80, 0, .null, .bool true⟩,
      .line {
        x2 := 95, y2 := 10, stroke := "#000000", strokeWidth := 2, strokeStyle := .solid }⟩]
  settings := ⟨5, .bool false, .bool true, .inches⟩

/-- The sample compiled at 144 dots per inch, its line between two points in pixels. -/
def drawnSample (x y x2 y2 : Rat) : PrintDocument Rat where
  dpi := 96 * (3 / 2)
  width := 576
  height := 288
  size := rationalSample.size
  elements := [
    ⟨⟨"picture", 29, 1, 144, 72, 0, .bool false, .bool true⟩, .image ⟨"/a.png", .contain⟩⟩,
    ⟨⟨"rule", x, y, 489, 230, 0, .null, .bool true⟩,
      .line { x2, y2, stroke := "#000000", strokeWidth := 4, strokeStyle := .solid }⟩]

/-- Dragged by seven pixels across and three up, at a zoom of one and a half, the line is drawn
with both its ends there, and the picture where it was. -/
theorem compile_moveBy_screenDelta_sample :
    ∃ dx dy moved, screenDelta ((7 : Int) : Rat) ((-3 : Int) : Rat) rationalSample.size (3 / 2) 96 =
        .ok (dx, dy) ∧
      rationalSample.moveBy "rule" (.num dx) (.num dy) = .ok moved ∧
      rationalSample.compile (96 * (3 / 2)) = .ok (drawnSample 58 259 547 29) ∧
      moved.compile (96 * (3 / 2)) = .ok (drawnSample 65 256 554 26) := by
  have hp : rationalSample.compile (96 * (3 / 2)) = .ok (drawnSample 58 259 547 29) := by
    decide +kernel
  have hdpi : (0 : Rat) < 96 := by decide +kernel
  have hzoom : (0 : Rat) < 3 / 2 := by decide +kernel
  obtain ⟨dx, dy, moved, hdelta, hmove, hcompile, -⟩ :=
    compile_moveBy_screenDelta (d := rationalSample) (by decide) rfl (by decide) (by decide)
      (List.mem_cons_of_mem _ List.mem_cons_self) rfl 7 (-3) hdpi hzoom
  refine ⟨dx, dy, moved, hdelta, hmove, hp, ?_⟩
  rw [hcompile, hp]
  decide +kernel

end Document

end LabelLayout
