import LabelLayout.Proofs.Document.Valid
import LabelLayout.Proofs.Print.Advice
import Mathlib.Data.List.Nodup

/-!
# `LabelLayout.Proofs.Print.Edge`: what fits on a label and on its canvas

An element that fits on the label has each of its coordinates on the canvas
(`Print.IsSide.percentToPixels_mem`), because rounding keeps the order. A line is compiled by its
ends, so it is never said to run past the edge. Any other element is compiled by its
origin and its extent, which are rounded separately: each is at most the canvas, but
their sum may be more.

A canvas is measured by an exact product where the sides of the label and the resolution
are integers. An integer of more than 53 binary places is rounded where a percentage is
taken of it, so the canvas can then fall short of 100 percent. `Print.IsMeasured` excludes
that.

`Print.pastEdge_iff_of_fitsLabel` is the main statement. An element that fits on the label
is said to run past the edge exactly when it is no line and its rounded origin and its
rounded extent add up to more than the canvas.
-/

set_option autoImplicit false

namespace LabelLayout

/-- Not negative, and within 100 percent both ways. -/
structure Bounds.IsOnLabel (b : Bounds Number) : Prop where
  left : (Number.int 0).le b.left = true
  top : (Number.int 0).le b.top = true
  right : b.right.le (.int 100) = true
  bottom : b.bottom.le (.int 100) = true

/-- An element whose box lies on the label and whose extent is not negative. -/
structure Element.FitsLabel (e : Element Number) : Prop where
  bounds : ∃ b, e.bounds = .ok b ∧ b.IsOnLabel
  width : (Number.int 0).le e.frame.width = true
  height : (Number.int 0).le e.frame.height = true

/-- A box of whole pixels runs past the edge when one of its sides does. -/
theorem Bounds.isPast_int {left top right bottom width height : Int} :
    (⟨.int left, .int top, .int right, .int bottom⟩ : Bounds Number).isPast width height = true ↔
      left < 0 ∨ top < 0 ∨ width < right ∨ height < bottom := by
  simp only [isPast, Scalar.lt, Scalar.ofInt, Bool.or_eq_true, Number.int_lt_int, or_assoc]

namespace Print

section

variable {d : Document Number} {dpi : Number} {p : PrintDocument Number}
  {ws : List (Warning Number)} {e c : Element Number} [Barcode.Qr.Package]

/-- The look at an element warns of its edge when its box runs past. -/
theorem pastEdge_mem_elementWarnings_iff {b : Bounds Number} (hb : c.bounds = .ok b)
    (h : elementWarnings p c = .ok ws) {id : String} :
    .pastEdge id ∈ ws ↔ id = c.id ∧ b.isPast p.width p.height = true := by
  obtain ⟨scan, edge, hscan, hedge, rfl⟩ := elementWarnings_eq_ok.mp h
  rw [edgeWarnings_of_bounds hb] at hedge
  cases hedge
  -- The look at a scan code does not warn of the edge.
  have hscan : .pastEdge id ∉ scan := fun hmem => nomatch (spec_of_mem_scanWarnings hscan hmem).2
  cases hpast : b.isPast p.width p.height <;> simp [hscan]

/-- The check warns of the edge of an element when the compiled box runs past. -/
theorem pastEdge_mem_warnings_iff (hids : d.ids.Nodup) (hp : d.compile dpi = .ok p)
    (hws : warnings p = .ok ws) (he : e ∈ d.elements) (hvisible : e.isVisible = true)
    (hc : e.compile d.size dpi = .ok c) {b : Bounds Number} (hb : c.bounds = .ok b) :
    .pastEdge e.id ∈ ws ↔ b.isPast p.width p.height = true := by
  constructor
  · intro hmem
    obtain ⟨e', he', -, hid, c', list, hc', hlist, hmem⟩ := exists_of_mem_warnings hp hws hmem
    -- No other element has this id.
    obtain rfl : e = e' := List.inj_on_of_nodup_map hids he he' hid
    cases hc.symm.trans hc'
    exact ((pastEdge_mem_elementWarnings_iff hb hlist).mp hmem).2
  · intro hpast
    obtain ⟨list, hwarnings, hamong⟩ := exists_elementWarnings hp hws he hvisible hc
    have hid : e.id = c.id := (Element.keeps_of_compile hc).id.symm
    exact hamong _ ((pastEdge_mem_elementWarnings_iff hb hwarnings).mpr ⟨hid, hpast⟩)

end

/-- The numbers that a canvas is measured with are doubles. -/
structure IsMeasured (size : LabelSize Number) (dpi : Number) : Prop where
  width : size.width.IsDouble
  height : size.height.IsDouble
  dpi : dpi.IsDouble

section

variable {d : Document Number} {dpi : Number} {p : PrintDocument Number}
  {ws : List (Warning Number)} {e c : Element Number}

/-- The ends of a line that fits come to lie on the canvas. -/
theorem isPast_of_line {line : LineBody Number} (hline : e.body = .line line) (hd : d.IsValid)
    (hmeasured : IsMeasured d.size dpi) (hdpi : (Number.int 0).lt dpi = true)
    (hp : d.compile dpi = .ok p) (hfits : e.FitsLabel) (hc : e.compile d.size dpi = .ok c) :
    ∃ b, c.bounds = .ok b ∧ b.isPast p.width p.height = false := by
  obtain ⟨-, -, hwidth, hheight, -⟩ := Document.compile_eq_ok.mp hp
  obtain ⟨x, y, x2, y2, w, frame, hx, hy, hx2, hy2, -, hframe, rfl⟩ :=
    (Element.compile_line_eq_ok hline).mp hc
  obtain ⟨b, hb, hlabel⟩ := hfits.bounds
  rw [Element.bounds, hline] at hb
  cases hb
  -- The ends have doubles, or they would not have been compiled.
  have near : ∀ {extent percent v : Number}, percentToPixels extent dpi percent = .ok v →
      ∃ u, percent.units? = some u := by
    intro extent percent v h
    obtain ⟨_, _, _, hnear, -⟩ := percentToPixels_eq_ok.mp h
    exact hnear.exists_units
  obtain ⟨_, hxu⟩ := near hx
  obtain ⟨_, hyu⟩ := near hy
  obtain ⟨_, hx2u⟩ := near hx2
  obtain ⟨_, hy2u⟩ := near hy2
  obtain ⟨hx0, hx20⟩ := Number.le_min rfl hxu hx2u hlabel.left
  obtain ⟨hy0, hy20⟩ := Number.le_min rfl hyu hy2u hlabel.top
  obtain ⟨hx100, hx2100⟩ := Number.max_le rfl hxu hx2u hlabel.right
  obtain ⟨hy100, hy2100⟩ := Number.max_le rfl hyu hy2u hlabel.bottom
  have hacross : IsSide d.size.width dpi p.width :=
    ⟨hwidth, hmeasured.width, hmeasured.dpi, hd.size.1, hdpi⟩
  have hdown : IsSide d.size.height dpi p.height :=
    ⟨hheight, hmeasured.height, hmeasured.dpi, hd.size.2, hdpi⟩
  obtain ⟨i, rfl, hi0, hi⟩ := hacross.percentToPixels_mem hx hx0 hx100
  obtain ⟨j, rfl, hj0, hj⟩ := hdown.percentToPixels_mem hy hy0 hy100
  obtain ⟨k, rfl, hk0, hk⟩ := hacross.percentToPixels_mem hx2 hx20 hx2100
  obtain ⟨l, rfl, hl0, hl⟩ := hdown.percentToPixels_mem hy2 hy20 hy2100
  simp only [Frame.spanning, bind_eq_ok, pure_eq_ok] at hframe
  obtain ⟨_, -, _, -, rfl⟩ := hframe
  refine ⟨⟨.int (min i k), .int (min j l), .int (max i k), .int (max j l)⟩, ?_, ?_⟩
  · simp only [Element.bounds, Number.min_int, Number.max_int]
    rfl
  · rw [← Bool.not_eq_true, Bounds.isPast_int]
    omega

/-- The origin and the extent of a box that fits come to lie at whole pixels, none of them
negative. -/
theorem exists_pixels_of_box (hline : e.kind ≠ .line) (hd : d.IsValid)
    (hdpi : (Number.int 0).lt dpi = true) (hfits : e.FitsLabel)
    (hc : e.compile d.size dpi = .ok c) :
    ∃ x y width height : Int,
      percentToPixels d.size.width dpi e.frame.x = .ok (.int x) ∧
      percentToPixels d.size.height dpi e.frame.y = .ok (.int y) ∧
      percentToPixels d.size.width dpi e.frame.width = .ok (.int width) ∧
      percentToPixels d.size.height dpi e.frame.height = .ok (.int height) ∧
      (0 ≤ x ∧ 0 ≤ y ∧ 0 ≤ width ∧ 0 ≤ height) ∧
      c.bounds = .ok ⟨.int x, .int y, .int (x + width), .int (y + height)⟩ := by
  have hkind := (Element.keeps_of_compile hc).kind
  obtain ⟨x, y, w, h, body, hx, hy, hw, hh, -, rfl⟩ := (Element.compile_box_eq_ok hline).mp hc
  obtain ⟨b, hb, hlabel⟩ := hfits.bounds
  obtain ⟨right, bottom, -, -, rfl⟩ := (Element.bounds_box_eq_ok hline).mp hb
  obtain ⟨i, rfl, hi⟩ := percentToPixels_nonneg hx hd.size.1 hdpi hlabel.left
  obtain ⟨j, rfl, hj⟩ := percentToPixels_nonneg hy hd.size.2 hdpi hlabel.top
  obtain ⟨k, rfl, hk⟩ := percentToPixels_nonneg hw hd.size.1 hdpi hfits.width
  obtain ⟨l, rfl, hl⟩ := percentToPixels_nonneg hh hd.size.2 hdpi hfits.height
  exact ⟨i, j, k, l, hx, hy, hw, hh, ⟨hi, hj, hk, hl⟩,
    Element.bounds_of_int (hkind ▸ hline) rfl rfl rfl rfl⟩

/-- An element that fits on the label is said to run past the edge exactly when it is no
line and its origin and its extent, rounded to whole pixels each, add up to more than the
canvas. Each by itself lies on the canvas, and a line is never said to run past, if the
canvas is measured with doubles. -/
theorem pastEdge_iff_of_fitsLabel [Barcode.Qr.Package] (hd : d.IsValid)
    (hdpi : (Number.int 0).lt dpi = true) (hp : d.compile dpi = .ok p)
    (hws : warnings p = .ok ws) (he : e ∈ d.elements) (hvisible : e.isVisible = true)
    (hfits : e.FitsLabel) :
    (e.kind = .line → IsMeasured d.size dpi → .pastEdge e.id ∉ ws) ∧
    (e.kind ≠ .line → ∃ x y width height : Int,
      percentToPixels d.size.width dpi e.frame.x = .ok (.int x) ∧
      percentToPixels d.size.height dpi e.frame.y = .ok (.int y) ∧
      percentToPixels d.size.width dpi e.frame.width = .ok (.int width) ∧
      percentToPixels d.size.height dpi e.frame.height = .ok (.int height) ∧
      (0 ≤ x ∧ 0 ≤ y ∧ 0 ≤ width ∧ 0 ≤ height) ∧
      (IsMeasured d.size dpi →
        (x ≤ p.width ∧ width ≤ p.width) ∧ (y ≤ p.height ∧ height ≤ p.height)) ∧
      (.pastEdge e.id ∈ ws ↔ p.width < x + width ∨ p.height < y + height)) := by
  obtain ⟨-, -, hcanvasWidth, hcanvasHeight, hcompiled⟩ := Document.compile_eq_ok.mp hp
  obtain ⟨c, -, hc⟩ := exists_of_forall₂ hcompiled e he
  constructor
  · intro hkind hmeasured hmem
    obtain ⟨line, hline⟩ : ∃ line, e.body = .line line := by
      cases hbody : e.body with
      | line line => exact ⟨line, rfl⟩
      | _ =>
        rw [Element.kind, hbody] at hkind
        cases hkind
    obtain ⟨b, hb, hpast⟩ := isPast_of_line hline hd hmeasured hdpi hp hfits hc
    rw [pastEdge_mem_warnings_iff hd.ids hp hws he hvisible hc hb, hpast] at hmem
    cases hmem
  · intro hline
    obtain ⟨x, y, width, height, hx, hy, hwidth, hheight, hnonneg, hb⟩ :=
      exists_pixels_of_box hline hd hdpi hfits hc
    refine ⟨x, y, width, height, hx, hy, hwidth, hheight, hnonneg, fun hmeasured => ?_, ?_⟩
    · obtain ⟨b, hb, hlabel⟩ := hfits.bounds
      obtain ⟨right, bottom, hright, hbottom, rfl⟩ := (Element.bounds_box_eq_ok hline).mp hb
      have hacross : IsSide d.size.width dpi p.width :=
        ⟨hcanvasWidth, hmeasured.width, hmeasured.dpi, hd.size.1, hdpi⟩
      have hdown : IsSide d.size.height dpi p.height :=
        ⟨hcanvasHeight, hmeasured.height, hmeasured.dpi, hd.size.2, hdpi⟩
      exact ⟨hacross.le_of_add_le hx hwidth hlabel.left hfits.width hright hlabel.right,
        hdown.le_of_add_le hy hheight hlabel.top hfits.height hbottom hlabel.bottom⟩
    · rw [pastEdge_mem_warnings_iff hd.ids hp hws he hvisible hc hb, Bounds.isPast_int]
      omega

end

end Print

/-- The right half of a label. -/
def Element.rightHalf : Element Number where
  frame := ⟨"half", .int 50, .int 0, .int 50, .int 10, .int 0, .bool false, .bool true⟩
  body := .shape {
    form := .rectangle, fill := "transparent", stroke := "#000000", strokeWidth := .int 2
    cornerRadius := .int 0 }

/-- A label one inch wide, with its right half. -/
def Document.halved : Document Number where
  size := LabelSize.inches "1×3 Narrow" (.int 1) (.int 3) .location
  elements := [.rightHalf]
  settings := Settings.initial

theorem Document.isValid_halved : halved.IsValid where
  size := ⟨by decide +kernel, by decide +kernel⟩
  elements := by
    simp only [halved, List.forall_mem_cons]
    exact ⟨⟨by decide, fun line h => by cases h⟩, List.forall_mem_nil _⟩
  ids := by decide
  settings := isValid_initial.settings

/-- At 203 dots per inch the canvas has 203 pixels across. The half begins at pixel 102 and
is 102 pixels wide, so it is said to run past the edge. -/
theorem Print.pastEdge_halved :
    ∃ p ws, Document.halved.compile (.int 203) = .ok p ∧ warnings p = .ok ws ∧
      Element.rightHalf.FitsLabel ∧ .pastEdge "half" ∈ ws := by
  obtain ⟨ws, hws⟩ : ∃ ws, (Document.halved.compile (.int 203) >>= warnings) = .ok ws :=
    exists_of_isOk (by decide +kernel)
  obtain ⟨p, hp, hws⟩ := bind_eq_ok.mp hws
  have hfits : Element.rightHalf.FitsLabel :=
    ⟨⟨_, rfl, by decide +kernel, by decide +kernel, by decide +kernel, by decide +kernel⟩,
      by decide +kernel, by decide +kernel⟩
  obtain ⟨x, y, width, height, hx, -, hwidth, -, -, -, hiff⟩ :=
    (pastEdge_iff_of_fitsLabel Document.isValid_halved (by decide +kernel) hp hws
      (List.mem_singleton.mpr rfl) rfl hfits).2 (by decide)
  have hcanvas : inchesToPixels (Number.int 1) (.int 203) = .ok p.width :=
    (Document.compile_eq_ok.mp hp).2.2.1
  have h50 : percentToPixels (Number.int 1) (.int 203) (.int 50) = .ok (.int 102) := by
    decide +kernel
  have h203 : inchesToPixels (Number.int 1) (.int 203) = .ok 203 := by decide +kernel
  have hx102 : x = 102 := Number.int.inj (Except.ok.inj (hx.symm.trans h50))
  have hwidth102 : width = 102 := Number.int.inj (Except.ok.inj (hwidth.symm.trans h50))
  have h203 : p.width = 203 := Except.ok.inj (hcanvas.symm.trans h203)
  exact ⟨p, ws, hp, hws, hfits, hiff.mpr (.inl (by omega))⟩

end LabelLayout
