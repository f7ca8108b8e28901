import LabelLayout.Proofs.Binding.Fields
import LabelLayout.Proofs.Print.Hidden
import LabelLayout.Proofs.Print.Render

/-!
# `LabelLayout.Proofs.Print.Filled`: filling in and compiling do not meet

A label is filled in and then compiled. Filling in looks at the bindings and writes what a text
shows and what a code holds. Compiling looks at lengths and writes lengths. So the order does
not matter. `Print.compileBody_fillBody` says this of a body, `Element.compile_resolve` of an
element and `Document.render_eq_map_resolve` of a document. In a line compiling derives the
extent from the ends, but there is nothing to fill in in a line.

`Print.lengths` lists the fields that compiling writes. It keeps the others
(`Element.get_compile`), so a label differs from its design in them and in what is filled in
(`Request.print_eq_map_resolve`).
-/

set_option autoImplicit false

namespace LabelLayout

/-! ### Bodies and elements -/

section

open Print Binding

variable {size : LabelSize Number} {dpi : Number} {e c : Element Number} (context : Datum)

/-- A body is filled in alike before it is compiled and after. -/
theorem Print.compileBody_fillBody (body : Body Number) :
    compileBody dpi (fillBody context body) = (compileBody dpi body).map (fillBody context) := by
  cases body with
  | text t =>
    simp only [fillBody, compileBody, map_bind]
    rfl
  | shape s =>
    simp only [fillBody, compileBody, map_bind]
    rfl
  | _ => rfl

/-- There is nothing to fill in in a line. -/
theorem Element.resolve_of_line (hline : e.kind = .line) : e.resolve context = e := by
  obtain ⟨frame, body⟩ := e
  cases body with
  | line line => rfl
  | _ => cases hline

/-- An element is filled in alike before it is compiled and after. When it cannot be compiled,
the fault is the same. -/
theorem Element.compile_resolve (e : Element Number) :
    (e.resolve context).compile size dpi =
      (e.compile size dpi).map (Element.resolve context) := by
  by_cases hline : e.kind = .line
  · rw [resolve_of_line context hline]
    refine (map_eq_self fun c hc => ?_).symm
    exact resolve_of_line context ((keeps_of_compile hc).kind.trans hline)
  · have hresolved : (e.resolve context).kind ≠ .line := by rwa [kind_resolve]
    rw [compile_of_ne_line hline, compile_of_ne_line hresolved]
    simp only [resolve, compileBody_fillBody, bind_map, map_bind]
    rfl

/-- The fields that compiling writes. -/
def Print.lengths : List Attribute :=
  [.x, .y, .width, .height, .x2, .y2, .fontSize, .letterSpacing, .strokeWidth, .cornerRadius]

/-- Compiling a body keeps its other fields. -/
theorem Print.get_compileBody {body compiled : Body Number} {a : Attribute} (ha : a ∉ lengths)
    (h : compileBody dpi body = .ok compiled) : compiled.get a = body.get a := by
  cases body with
  | text t =>
    simp only [compileBody, bind_eq_ok, pure_eq_ok] at h
    obtain ⟨fontSize, -, letterSpacing, -, rfl⟩ := h
    cases a <;> first | rfl | exact absurd (by decide) ha
  | shape s =>
    simp only [compileBody, bind_eq_ok, pure_eq_ok] at h
    obtain ⟨strokeWidth, -, cornerRadius, -, rfl⟩ := h
    cases a <;> first | rfl | exact absurd (by decide) ha
  | _ =>
    cases h
    rfl

/-- Compiling an element keeps its other fields. -/
theorem Element.get_compile {a : Attribute} (ha : a ∉ lengths)
    (h : e.compile size dpi = .ok c) : c.get a = e.get a := by
  by_cases hline : e.kind = .line
  · obtain ⟨frame, body⟩ := e
    cases body with
    | line line =>
      obtain ⟨x, y, x2, y2, strokeWidth, compiled, -, -, -, -, -, hframe, rfl⟩ :=
        (compile_line_eq_ok rfl).mp h
      simp only [Frame.spanning, bind_eq_ok, pure_eq_ok] at hframe
      obtain ⟨width, -, height, -, rfl⟩ := hframe
      cases a <;> first | rfl | exact absurd (by decide) ha
    | _ => cases hline
  · obtain ⟨x, y, width, height, body, -, -, -, -, hbody, rfl⟩ :=
      (compile_box_eq_ok hline).mp h
    by_cases hframe : a ∈ frameAttributes
    · rw [get_of_mem hframe, get_of_mem hframe]
      cases a <;> first | rfl | exact absurd (by decide) ha
    · rw [get_of_notMem hframe, get_of_notMem hframe]
      exact get_compileBody ha hbody

/-- A printed form of an element has its kind, and its fields but for lengths and for what is
shown or scanned. -/
structure Element.IsPrintedAs (e c : Element Number) : Prop where
  kind : c.kind = e.kind
  get : ∀ a, a ∉ lengths → a ≠ .content → a ≠ .value → c.get a = e.get a

theorem Element.IsPrintedAs.id_eq (h : e.IsPrintedAs c) : c.id = e.id :=
  Value.str.inj (h.get .id (by decide) (by decide) (by decide))

theorem Element.isPrintedAs_of_compile {context : Datum}
    (h : (e.resolve context).compile size dpi = .ok c) : e.IsPrintedAs c where
  kind := (keeps_of_compile h).kind.trans (kind_resolve context)
  get := by
    intro a ha hcontent hvalue
    rw [get_compile ha h, get_resolve context hcontent hvalue]

end

/-! ### Labels -/

/-- A label in device pixels that is filled in from a context. -/
def PrintDocument.resolve (context : Datum) (p : PrintDocument Number) : PrintDocument Number :=
  { p with elements := p.elements.map (Element.resolve context) }

/-- A document is filled in alike before it is compiled and after. -/
theorem Document.render_eq_map_resolve (d : Document Number) (dpi : Number) (context : Datum) :
    d.render dpi context = (d.compile dpi).map (PrintDocument.resolve context) := by
  have helements : (d.resolve context).elements.mapM (Element.compile d.size dpi) =
      (d.elements.mapM (Element.compile d.size dpi)).map (List.map (Element.resolve context)) :=
    mapM_map_eq fun e _ => e.compile_resolve context
  have hsize : (d.resolve context).size = d.size := rfl
  simp only [render, compile, hsize, helements, bind_map, map_bind]
  rfl

namespace Request

variable {d : Document Number} {dpi context : Datum} {p : PrintDocument Number}

/-- The checks of the arguments look at nothing that is filled in. -/
theorem compileElement_resolve (e : Element Number) (size : LabelSize Number) :
    compileElement (e.resolve context) size dpi =
      (compileElement e size dpi).map (Element.resolve context) := by
  simp only [compileElement, map_bind, e.compile_resolve context, lift_map]
  rfl

theorem print_resolve (d : Document Number) (dpi context : Datum) :
    print d dpi (some context) = (print d dpi none).map (PrintDocument.resolve context) := by
  have hrender : ∀ x, (d.resolve context).compile x =
      (d.compile x).map (PrintDocument.resolve context) :=
    fun x => d.render_eq_map_resolve x context
  simp only [print, map_bind, hrender, lift_map]

/-- The elements of a label are printed forms of those of its design, in their order. -/
theorem forall₂_print (h : print d dpi (some context) = .ok p) :
    List.Forall₂ Element.IsPrintedAs d.elements p.elements := by
  obtain ⟨x, -, hrender⟩ := print_eq_ok.mp h
  obtain ⟨-, -, -, -, helements⟩ := Document.compile_eq_ok.mp hrender
  have hsource := List.forall₂_map_left_iff.mp helements
  exact hsource.imp fun e c hc => Element.isPrintedAs_of_compile hc

/-- Filling in and compiling commute. At every size and resolution and in every context, which is
null where there is none, an element that is filled in and compiled is what becomes of it when it
is compiled and filled in, and one of both fails when the other does, with the same error. So a
label that is printed in a context is the label that is printed without one with each element
filled in. It has the size and the ids of its document, in the same order, and an element of it
differs from that of the document in lengths and in what is filled in. -/
theorem print_eq_map_resolve (d : Document Number) (dpi context : Datum) :
    (∀ e size, compileElement (e.resolve context) size dpi =
      (compileElement e size dpi).map (Element.resolve context)) ∧
    print d dpi (some context) = (print d dpi none).map (PrintDocument.resolve context) ∧
    ∀ p, print d dpi (some context) = .ok p →
      p.size = d.size ∧ p.elements.map Element.id = d.ids ∧
        List.Forall₂ Element.IsPrintedAs d.elements p.elements := by
  refine ⟨fun e size => compileElement_resolve e size, print_resolve d dpi context, ?_⟩
  intro p hp
  obtain ⟨x, -, hrender⟩ := print_eq_ok.mp hp
  obtain ⟨-, hsize, -⟩ := Document.compile_eq_ok.mp hrender
  have helements := forall₂_print hp
  have hids : List.Forall₂ (fun e c : Element Number => e.id = c.id) d.elements p.elements :=
    helements.imp fun e c h => h.id_eq.symm
  refine ⟨hsize, ?_, helements⟩
  rw [← List.forall₂_map_right_iff, ← List.forall₂_map_left_iff, List.forall₂_eq_eq_eq] at hids
  exact hids.symm

/-- The sample's rule below the elements of the price tag. -/
def ruled : Document Number :=
  { Document.priceTag with
    elements := Document.sample.elements.drop 1 ++ Document.priceTag.elements }

/-- A line, a bound text, a text with tokens and a code whose value is one. What the context has
is filled in before the percentages become pixels, or after that. -/
theorem print_eq_map_resolve_ruled :
    let context : Datum := .object [("bin", .str "B-7"), ("product", .object [
      ("price", .num (.int 5)), ("name", .null)])]
    ∃ compiled p, print ruled (.num (.int 203)) none = .ok compiled ∧
      print ruled (.num (.int 203)) (some context) = .ok p ∧
      p = compiled.resolve context ∧
      p.elements.map Element.id = ["rule", "price", "name", "code"] ∧
      p.elements.map (Element.get · .content) =
        [.null, .str "5", .str "\x7b\x7b product.name \x7d\x7d at B-7", .null] ∧
      p.elements.map (Element.get · .value) = [.null, .null, .null, .str "B7"] ∧
      List.Forall₂ Element.IsPrintedAs ruled.elements p.elements := by
  intro context
  obtain ⟨-, hprint, hsource⟩ := print_eq_map_resolve ruled (.num (.int 203)) context
  obtain ⟨compiled, hcompiled⟩ : ∃ p, print ruled (.num (.int 203)) none = .ok p :=
    exists_of_isOk (by decide +kernel)
  rw [hcompiled] at hprint
  obtain ⟨-, hids, helements⟩ := hsource _ hprint
  have hruled : ruled.ids = ["rule", "price", "name", "code"] := rfl
  have hfilled : (print ruled (.num (.int 203)) (some context)).map (fun p =>
      (p.elements.map (Element.get · .content), p.elements.map (Element.get · .value))) =
        .ok ([.null, .str "5", .str "\x7b\x7b product.name \x7d\x7d at B-7", .null],
          [.null, .null, .null, .str "B7"]) := by
    decide +kernel
  rw [hprint] at hfilled
  obtain ⟨hcontent, hvalue⟩ := Prod.mk.inj (Except.ok.inj hfilled)
  exact ⟨compiled, _, hcompiled, hprint, rfl, hids.trans hruled, hcontent, hvalue, helements⟩

end Request

end LabelLayout
