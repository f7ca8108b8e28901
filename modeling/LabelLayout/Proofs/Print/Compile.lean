import LabelLayout.Proofs.Geometry.Moved
import LabelLayout.Proofs.Print.Units

/-!
# `LabelLayout.Proofs.Print.Compile`: what compiling makes of an element

`Element.compile_line_eq_ok` and `Element.compile_box_eq_ok` take compiling apart: a line
is compiled by its ends, and any other element by its origin and its extent, each number
by itself. What is no length stays as it is.

The positions and extents that come out are whole pixels, integers small enough to have
a double (`Number.IsWhole`).

Over the rationals nothing is too large, and what compiling can fail at is the letter spacing of
a text, which may be any value. `Document.exists_compile_rat_iff` says that a document is
compiled exactly when every letter spacing is one that can be scaled (`Value.IsMetric`).
-/

set_option autoImplicit false

namespace LabelLayout

section

variable {α : Type} [Scalar α] {size : LabelSize α} {dpi : α} {e compiled : Element α}

open Print

/-- A line is compiled by its ends. -/
theorem Element.compile_line_eq_ok {line : LineBody α} (h : e.body = .line line) :
    e.compile size dpi = .ok compiled ↔ ∃ x y x2 y2 strokeWidth frame,
      percentToPixels size.width dpi e.frame.x = .ok x ∧
      percentToPixels size.height dpi e.frame.y = .ok y ∧
      percentToPixels size.width dpi line.x2 = .ok x2 ∧
      percentToPixels size.height dpi line.y2 = .ok y2 ∧
      pointsToPixels line.strokeWidth dpi = .ok strokeWidth ∧
      { e.frame with x, y }.spanning x2 y2 = .ok frame ∧
      compiled = ⟨frame, .line { line with x2, y2, strokeWidth }⟩ := by
  simp only [compile, h, bind_eq_ok, pure_eq_ok]
  constructor
  · rintro ⟨x, hx, y, hy, x2, hx2, y2, hy2, w, hw, frame, hframe, rfl⟩
    exact ⟨x, y, x2, y2, w, frame, hx, hy, hx2, hy2, hw, hframe, rfl⟩
  · rintro ⟨x, y, x2, y2, w, frame, hx, hy, hx2, hy2, hw, hframe, rfl⟩
    exact ⟨x, hx, y, hy, x2, hx2, y2, hy2, w, hw, frame, hframe, rfl⟩

/-- Any other element is compiled by its origin, its extent and its body, in this order. -/
theorem Element.compile_of_ne_line (h : e.kind ≠ .line) :
    e.compile size dpi = (do
      let x ← percentToPixels size.width dpi e.frame.x
      let y ← percentToPixels size.height dpi e.frame.y
      let width ← percentToPixels size.width dpi e.frame.width
      let height ← percentToPixels size.height dpi e.frame.height
      return ⟨{ e.frame with x, y, width, height }, ← compileBody dpi e.body⟩) := by
  obtain ⟨frame, body⟩ := e
  cases body with
  | line line => exact absurd rfl h
  | _ => rfl

theorem Element.compile_box_eq_ok (h : e.kind ≠ .line) :
    e.compile size dpi = .ok compiled ↔ ∃ x y width height body,
      percentToPixels size.width dpi e.frame.x = .ok x ∧
      percentToPixels size.height dpi e.frame.y = .ok y ∧
      percentToPixels size.width dpi e.frame.width = .ok width ∧
      percentToPixels size.height dpi e.frame.height = .ok height ∧
      compileBody dpi e.body = .ok body ∧
      compiled = ⟨{ e.frame with x, y, width, height }, body⟩ := by
  simp only [compile_of_ne_line h, bind_eq_ok, pure_eq_ok]
  constructor
  · rintro ⟨x, hx, y, hy, w, hw, h, hh, b, hb, rfl⟩
    exact ⟨x, y, w, h, b, hx, hy, hw, hh, hb, rfl⟩
  · rintro ⟨x, y, w, h, b, hx, hy, hw, hh, hb, rfl⟩
    exact ⟨x, hx, y, hy, w, hw, h, hh, b, hb, rfl⟩

/-- The kinds whose bodies have no lengths. -/
def Kind.IsPlain (kind : Kind) : Prop := kind = .barcode ∨ kind = .qrcode ∨ kind = .image

/-- A compiled body is of the same kind, and the same unless it has lengths. -/
theorem Print.compileBody_keeps {body compiled : Body α} (h : compileBody dpi body = .ok compiled) :
    compiled.kind = body.kind ∧ (body.kind.IsPlain → compiled = body) := by
  cases body with
  | text t =>
    simp only [compileBody, bind_eq_ok, pure_eq_ok] at h
    obtain ⟨_, -, _, -, rfl⟩ := h
    exact ⟨rfl, fun hplain => by rcases hplain with h | h | h <;> cases h⟩
  | shape s =>
    simp only [compileBody, bind_eq_ok, pure_eq_ok] at h
    obtain ⟨_, -, _, -, rfl⟩ := h
    exact ⟨rfl, fun hplain => by rcases hplain with h | h | h <;> cases h⟩
  | _ =>
    cases h
    exact ⟨rfl, fun _ => rfl⟩

/-- Compiling keeps the id, the flags, the kind, and all of a body without lengths. -/
structure Element.Keeps (e compiled : Element α) : Prop where
  id : compiled.id = e.id
  visible : compiled.frame.visible = e.frame.visible
  kind : compiled.kind = e.kind
  body : e.kind.IsPlain → compiled.body = e.body

theorem Element.keeps_of_compile (h : e.compile size dpi = .ok compiled) : e.Keeps compiled := by
  by_cases hline : e.kind = .line
  · obtain ⟨frame, body⟩ := e
    cases body with
    | line line =>
      obtain ⟨x, y, x2, y2, w, frame, -, -, -, -, -, hframe, rfl⟩ :=
        (compile_line_eq_ok rfl).mp h
      simp only [Frame.spanning, bind_eq_ok, pure_eq_ok] at hframe
      obtain ⟨_, -, _, -, rfl⟩ := hframe
      exact ⟨rfl, rfl, rfl, fun hplain => by rcases hplain with h | h | h <;> cases h⟩
    | _ => cases hline
  · obtain ⟨x, y, width, height, body, -, -, -, -, hbody, rfl⟩ :=
      (compile_box_eq_ok hline).mp h
    obtain ⟨hkind, hsame⟩ := compileBody_keeps hbody
    exact ⟨rfl, rfl, hkind, hsame⟩

theorem Element.Keeps.isVisible_eq (h : e.Keeps compiled) : compiled.isVisible = e.isVisible := by
  rw [isVisible, isVisible, h.visible]

end

section

variable {size : LabelSize Number} {dpi : Number} {e compiled : Element Number}

open Print

/-- A compiled element that is no line has a whole origin and a whole extent. -/
theorem Element.isWhole_of_compile (hline : e.kind ≠ .line)
    (h : e.compile size dpi = .ok compiled) :
    compiled.frame.x.IsWhole ∧ compiled.frame.y.IsWhole ∧ compiled.frame.width.IsWhole ∧
      compiled.frame.height.IsWhole := by
  obtain ⟨x, y, width, height, body, hx, hy, hwidth, hheight, -, rfl⟩ :=
    (compile_box_eq_ok hline).mp h
  exact ⟨isWhole_of_percentToPixels hx, isWhole_of_percentToPixels hy,
    isWhole_of_percentToPixels hwidth, isWhole_of_percentToPixels hheight⟩

end

/-- The box of whole pixels is one of whole pixels. -/
theorem Element.bounds_of_int {e : Element Number} (hline : e.kind ≠ .line)
    {x y width height : Int} (hx : e.frame.x = .int x) (hy : e.frame.y = .int y)
    (hwidth : e.frame.width = .int width) (hheight : e.frame.height = .int height) :
    e.bounds = .ok ⟨.int x, .int y, .int (x + width), .int (y + height)⟩ := by
  refine (bounds_box_eq_ok hline).mpr ⟨.int (x + width), .int (y + height), ?_, ?_, ?_⟩
  · rw [hx, hwidth]
    rfl
  · rw [hy, hheight]
    rfl
  · rw [hx, hy]

/-! ### Text metrics -/

namespace Value

variable {α : Type}

/-- A text metric that printing can use. -/
def IsMetric (v : Value α) : Prop := v = .null ∨ (∃ flag, v = .bool flag) ∨ ∃ x, v = .num x

theorem operand_of_not_isMetric [Scalar α] {v : Value α} (h : ¬ v.IsMetric) :
    v.operand = .error .operand := by
  cases v with
  | null | str _ | list _ | object _ => rfl
  | bool flag => exact absurd (.inr (.inl ⟨flag, rfl⟩)) h
  | num x => exact absurd (.inr (.inr ⟨x, rfl⟩)) h

theorem IsMetric.exists_operand [Scalar α] {v : Value α} (h : v.IsMetric) (hnull : v ≠ .null) :
    ∃ x, v.operand = .ok x := by
  rcases h with rfl | ⟨flag, rfl⟩ | ⟨x, rfl⟩
  · exact absurd rfl hnull
  · exact ⟨_, rfl⟩
  · exact ⟨x, rfl⟩

end Value

/-- A text metric that is there is multiplied. -/
theorem Print.metricToPixels_eq {α : Type} [Scalar α] {dpi : α} {v : Value α} (h : v ≠ .null) :
    metricToPixels dpi v = (pixelsPerPoint dpi >>= fun perPoint =>
      v.operand >>= fun x => Scalar.mul x perPoint >>= fun y => .ok (.num y)) := by
  cases v with
  | null => exact absurd rfl h
  | _ => rfl

/-! ### Over the rationals -/

section

variable {size : LabelSize Rat} {dpi : Rat}

open Print

/-- Compiling what is no line can fail over its body only. -/
theorem Element.compile_box {frame : Frame Rat} {body : Body Rat} (h : body.kind ≠ .line) :
    compile size dpi ⟨frame, body⟩ = (compileBody dpi body).map fun compiled =>
      ⟨{ frame with
          x := (⌊frame.x / 100 * size.width * dpi + 1 / 2⌋ : Int)
          y := (⌊frame.y / 100 * size.height * dpi + 1 / 2⌋ : Int)
          width := (⌊frame.width / 100 * size.width * dpi + 1 / 2⌋ : Int)
          height := (⌊frame.height / 100 * size.height * dpi + 1 / 2⌋ : Int) }, compiled⟩ := by
  cases body with
  | line line => exact absurd rfl h
  | _ =>
    simp only [compile, percentToPixels_rat, ok_bind]
    cases compileBody dpi _ <;> rfl

variable (size dpi)

/-- A text metric is compiled whatever the resolution is. -/
theorem Print.exists_metricToPixels_rat_iff {v : Value Rat} :
    (∃ w, metricToPixels dpi v = .ok w) ↔ v.IsMetric := by
  by_cases hnull : v = .null
  · rw [hnull]
    exact ⟨fun _ => .inl rfl, fun _ => ⟨.null, rfl⟩⟩
  · rw [metricToPixels_eq hnull, pixelsPerPoint_rat, ok_bind]
    constructor
    · rintro ⟨w, hw⟩
      by_contra hmetric
      rw [Value.operand_of_not_isMetric hmetric, error_bind] at hw
      cases hw
    · intro hmetric
      obtain ⟨x, hx⟩ := hmetric.exists_operand hnull
      exact ⟨_, by rw [hx, ok_bind]; rfl⟩

/-- A body is compiled if its letter spacing is a metric. -/
theorem Print.exists_compileBody_rat_iff {frame : Frame Rat} {body : Body Rat} :
    (∃ b, compileBody dpi body = .ok b) ↔
      (Element.get ⟨frame, body⟩ .letterSpacing).IsMetric := by
  cases body with
  | text t =>
    refine Iff.trans ?_ (exists_metricToPixels_rat_iff dpi)
    simp only [compileBody, pointsToPixels_rat, ok_bind]
    constructor
    · rintro ⟨b, hb⟩
      obtain ⟨w, hw, -⟩ := bind_eq_ok.mp hb
      exact ⟨w, hw⟩
    · rintro ⟨w, hw⟩
      exact ⟨_, bind_eq_ok.mpr ⟨w, hw, rfl⟩⟩
  | _ => exact ⟨fun _ => .inl rfl, fun _ => ⟨_, rfl⟩⟩

/-- So is an element. -/
theorem Element.exists_compile_rat_iff {e : Element Rat} :
    (∃ c, e.compile size dpi = .ok c) ↔ (e.get .letterSpacing).IsMetric := by
  obtain ⟨frame, body⟩ := e
  by_cases hline : body.kind = .line
  · cases body with
    | line line =>
      exact ⟨fun _ => .inl rfl, fun _ => ⟨_, (compile_line_eq_ok rfl).mpr ⟨_, _, _, _, _, _,
        percentToPixels_rat .., percentToPixels_rat .., percentToPixels_rat ..,
        percentToPixels_rat .., pointsToPixels_rat .., rfl, rfl⟩⟩⟩
    | _ => cases hline
  · rw [compile_box hline, ← exists_compileBody_rat_iff dpi]
    simp only [map_eq_ok]
    exact ⟨fun ⟨_, b, hb, _⟩ => ⟨b, hb⟩, fun ⟨b, hb⟩ => ⟨_, b, hb, rfl⟩⟩

end

section

variable {α : Type} [Scalar α] {dpi : α}

open Print

/-- A document is compiled element by element, onto a canvas of its own size. -/
theorem Document.compile_eq_ok {d : Document α} {p : PrintDocument α} :
    d.compile dpi = .ok p ↔ p.dpi = dpi ∧ p.size = d.size ∧
      inchesToPixels d.size.width dpi = .ok p.width ∧
      inchesToPixels d.size.height dpi = .ok p.height ∧
      List.Forall₂ (fun e c => e.compile d.size dpi = .ok c) d.elements p.elements := by
  obtain ⟨pdpi, width, height, psize, elements⟩ := p
  simp only [compile, canvasSize, bind_eq_ok, pure_eq_ok, mapM_eq_ok, PrintDocument.mk.injEq]
  constructor
  · rintro ⟨_, ⟨w, hw, h, hh, rfl⟩, es, hes, rfl, rfl, rfl, rfl, rfl⟩
    exact ⟨rfl, rfl, hw, hh, hes⟩
  · rintro ⟨rfl, rfl, hw, hh, hes⟩
    exact ⟨_, ⟨_, hw, _, hh, rfl⟩, _, hes, rfl, rfl, rfl, rfl, rfl⟩

end

/-- Over the rationals, a document is compiled exactly when every letter spacing in it is null, a
number or a flag. -/
theorem Document.exists_compile_rat_iff {d : Document Rat} {dpi : Rat} :
    (∃ p, d.compile dpi = .ok p) ↔ ∀ e ∈ d.elements, (e.get .letterSpacing).IsMetric := by
  simp only [← Element.exists_compile_rat_iff d.size dpi, ← exists_mapM_iff]
  constructor
  · rintro ⟨p, hp⟩
    obtain ⟨-, -, -, -, helements⟩ := compile_eq_ok.mp hp
    exact ⟨_, mapM_eq_ok.mpr helements⟩
  · rintro ⟨elements, h⟩
    exact ⟨⟨dpi, _, _, d.size, elements⟩,
      compile_eq_ok.mpr ⟨rfl, rfl, rfl, rfl, mapM_eq_ok.mp h⟩⟩

end LabelLayout
