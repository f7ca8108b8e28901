import LabelLayout.Print.Sheet
import LabelLayout.Proofs.Design.RoundTrip
import LabelLayout.Proofs.Print.Advice
import LabelLayout.Request

/-!
# `LabelLayout.Proofs.Print.Hidden`: what is hidden leaves no trace in print

Binding and compiling go over all elements, the hidden ones too, and what is hidden is left
out late. `PrintDocument.PrintsAs` says that two labels agree in what every later stage looks
at: the resolution, the canvas, the size and the elements for print. Labels that are
compiled from documents of one size with the same visible elements do
(`Document.printsAs_of_compile`), since an element is filled in and compiled by itself and
keeps its flag. `Request.print_eq_of_visible` draws the consequences.
-/

set_option autoImplicit false

namespace LabelLayout

/-- Two labels that agree in all but hidden elements. -/
structure PrintDocument.PrintsAs (p q : PrintDocument Number) : Prop where
  dpi : p.dpi = q.dpi
  width : p.width = q.width
  height : p.height = q.height
  size : p.size = q.size
  printable : p.printable = q.printable

namespace PrintDocument.PrintsAs

variable {p q : PrintDocument Number}

theorem record_eq (h : p.PrintsAs q) : p.record = q.record := by
  rw [record, record, h.dpi, h.width, h.height, h.size, h.printable]

/-- The check of an element looks at the resolution and the canvas of its label. -/
theorem elementWarnings_eq [Barcode.Qr.Package] (h : p.PrintsAs q) (e : Element Number) :
    Print.elementWarnings p e = Print.elementWarnings q e := by
  rw [Print.elementWarnings, Print.elementWarnings, h.dpi, h.width, h.height]

theorem warnings_eq [Barcode.Qr.Package] (h : p.PrintsAs q) :
    Print.warnings p = Print.warnings q := by
  rw [Print.warnings, Print.warnings, h.printable, funext h.elementWarnings_eq]

theorem sheet_eq (h : p.PrintsAs q) (copies perRow margin : Datum) :
    Print.sheet p.width p.height copies perRow margin =
      Print.sheet q.width q.height copies perRow margin := by
  rw [h.width, h.height]

end PrintDocument.PrintsAs

namespace Document

variable {d₁ d₂ : Document Number} {dpi : Number} {p₁ p₂ : PrintDocument Number}

/-- The elements for print depend on the visible elements of the design. -/
theorem printsAs_of_compile (hsize : d₁.size = d₂.size)
    (hvisible : d₁.elements.filter Element.isVisible = d₂.elements.filter Element.isVisible)
    (h₁ : d₁.compile dpi = .ok p₁) (h₂ : d₂.compile dpi = .ok p₂) : p₁.PrintsAs p₂ := by
  obtain ⟨hdpi₁, hsize₁, hwidth₁, hheight₁, -⟩ := compile_eq_ok.mp h₁
  obtain ⟨hdpi₂, hsize₂, hwidth₂, hheight₂, -⟩ := compile_eq_ok.mp h₂
  have hprintable₁ := mapM_eq_ok.mpr (forall₂_printable h₁)
  have hprintable₂ := mapM_eq_ok.mpr (forall₂_printable h₂)
  rw [hsize] at hsize₁ hwidth₁ hheight₁ hprintable₁
  rw [hvisible] at hprintable₁
  exact {
    dpi := hdpi₁.trans hdpi₂.symm
    width := Except.ok.inj (hwidth₁.symm.trans hwidth₂)
    height := Except.ok.inj (hheight₁.symm.trans hheight₂)
    size := hsize₁.trans hsize₂.symm
    printable := Except.ok.inj (hprintable₁.symm.trans hprintable₂) }

/-- Filling a document in keeps what is visible. -/
theorem filter_resolve (d : Document Number) (context : Datum) :
    (d.resolve context).elements.filter Element.isVisible =
      (d.elements.filter Element.isVisible).map (Element.resolve context) :=
  List.filter_map

/-- The same after the documents are filled in. -/
theorem printsAs_of_render {context : Datum} (hsize : d₁.size = d₂.size)
    (hvisible : d₁.elements.filter Element.isVisible = d₂.elements.filter Element.isVisible)
    (h₁ : d₁.render dpi context = .ok p₁) (h₂ : d₂.render dpi context = .ok p₂) :
    p₁.PrintsAs p₂ := by
  have hresolved : (d₁.resolve context).elements.filter Element.isVisible =
      (d₂.resolve context).elements.filter Element.isVisible := by
    rw [filter_resolve, filter_resolve, hvisible]
  have hsize : (d₁.resolve context).size = (d₂.resolve context).size := hsize
  exact printsAs_of_compile hsize hresolved h₁ h₂

/-- The sample with a hidden picture below its elements, a hidden frame between them and other
settings. -/
def cluttered : Document Number where
  size := sample.size
  elements := [
    ⟨⟨"ghost", .int 0, .int 0, .int 100, .int 100, .int 0, .bool false, .bool false⟩,
      .image ⟨"/a.png", .contain⟩⟩] ++
    sample.elements.take 1 ++ [
    ⟨⟨"frame", .int 60, .int 60, .int 60, .int 60, .int 0, .bool false, .null⟩,
      .shape {
        form := .rectangle, fill := "transparent", stroke := "#000000", strokeWidth := .int 2
        cornerRadius := .int 0 }⟩] ++
    sample.elements.drop 1
  settings := ⟨.int 3, .bool false, .bool false, .inches⟩

end Document

namespace Request

variable {d : Document Number} {p : PrintDocument Number} {dpi : Datum}

/-- A label is printed at a resolution that passes its check, filled in where a context is
given. -/
theorem print_eq_ok {context : Option Datum} :
    print d dpi context = .ok p ↔ ∃ x, Print.resolution dpi = .ok x ∧
      match context with
      | some context => d.render x context = .ok p
      | none => d.compile x = .ok p := by
  rw [print.eq_def]
  cases context with
  | none =>
    simp only [bind_eq_ok, lift_eq_ok]
  | some context =>
    simp only [bind_eq_ok, lift_eq_ok]
    rfl

/-- Hidden elements and the settings of the editor have no influence on print. Two documents of
one size with the same visible elements in the same order, printed at one resolution and in
one context, give one record for the renderer, the same warnings in the same order, or the
same failure to find them, and the same sheets, whatever copies are asked for. -/
theorem print_eq_of_visible [Barcode.Qr.Package] {d₁ d₂ : Document Number}
    {p₁ p₂ : PrintDocument Number} {context : Option Datum} (hsize : d₁.size = d₂.size)
    (hvisible : d₁.elements.filter Element.isVisible = d₂.elements.filter Element.isVisible)
    (h₁ : print d₁ dpi context = .ok p₁) (h₂ : print d₂ dpi context = .ok p₂) :
    p₁.record = p₂.record ∧ Print.warnings p₁ = Print.warnings p₂ ∧
      ∀ copies perRow margin, Print.sheet p₁.width p₁.height copies perRow margin =
        Print.sheet p₂.width p₂.height copies perRow margin := by
  obtain ⟨x, hx, h₁⟩ := print_eq_ok.mp h₁
  obtain ⟨y, hy, h₂⟩ := print_eq_ok.mp h₂
  obtain rfl : x = y := Except.ok.inj (hx.symm.trans hy)
  have hprints : p₁.PrintsAs p₂ := by
    cases context with
    | some context => exact Document.printsAs_of_render hsize hvisible h₁ h₂
    | none => exact Document.printsAs_of_compile hsize hvisible h₁ h₂
  exact ⟨hprints.record_eq, hprints.warnings_eq, hprints.sheet_eq⟩

/-- The sample with hidden elements around its own prints as the sample does. -/
theorem print_eq_of_visible_cluttered :
    let context : Option Datum := some (.object [("product", .object [("price", .str "5")])])
    ∃ p₁ p₂, print Document.sample (.num (.int 203)) context = .ok p₁ ∧
      print Document.cluttered (.num (.int 203)) context = .ok p₂ ∧
      p₁.elements.length = 2 ∧ p₂.elements.length = 4 ∧
      p₁.record = p₂.record ∧ Print.warnings p₁ = Print.warnings p₂ ∧
      ∀ copies perRow margin, Print.sheet p₁.width p₁.height copies perRow margin =
        Print.sheet p₂.width p₂.height copies perRow margin := by
  intro context
  obtain ⟨p₁, h₁⟩ : ∃ p, print Document.sample (.num (.int 203)) context = .ok p :=
    exists_of_isOk (by decide +kernel)
  obtain ⟨p₂, h₂⟩ : ∃ p, print Document.cluttered (.num (.int 203)) context = .ok p :=
    exists_of_isOk (by decide +kernel)
  have hsize : Document.sample.size = Document.cluttered.size := rfl
  -- The hidden elements are among the compiled ones.
  obtain ⟨_, -, hrender₁⟩ := print_eq_ok.mp h₁
  obtain ⟨_, -, hrender₂⟩ := print_eq_ok.mp h₂
  obtain ⟨-, -, -, -, helements₁⟩ := Document.compile_eq_ok.mp hrender₁
  obtain ⟨-, -, -, -, helements₂⟩ := Document.compile_eq_ok.mp hrender₂
  exact ⟨p₁, p₂, h₁, h₂, helements₁.length_eq.symm, helements₂.length_eq.symm,
    print_eq_of_visible hsize (by decide +kernel) h₁ h₂⟩

end Request

end LabelLayout
