import LabelLayout.Barcode.Qr.Encoder
import LabelLayout.Print.Check
import LabelLayout.Proofs.Barcode.Fault
import LabelLayout.Proofs.Print.Compile

/-!
# `LabelLayout.Proofs.Print.Advice`: when the print check gives its advice

The check of a compiled label has two parts. The geometry of whole pixels cannot fail.
The values of scan codes can: `Element.ScanFault` are the values that
`LabelLayout.Proofs.Barcode.Fault` names, which are neither taken nor refused.

`Print.warnings_iff_no_scanFault` is the main statement. A compiled label is checked
through exactly when no visible element has such a value, and otherwise the first one
that has decides how the check fails.
-/

set_option autoImplicit false

namespace LabelLayout

/-- Whether a box runs past the edge of a canvas. -/
def Bounds.isPast {α : Type} [Scalar α] (b : Bounds α) (width height : Int) : Bool :=
  Scalar.lt b.left (Scalar.ofInt 0) || Scalar.lt b.top (Scalar.ofInt 0) ||
    Scalar.lt (Scalar.ofInt width) b.right || Scalar.lt (Scalar.ofInt height) b.bottom

/-- How the value of a scan code is neither taken nor refused. -/
def Element.ScanFault (e : Element Number) (f : Fault) : Prop :=
  match e.body with
  | .barcode b => f = .notADecimalDigit ∧
      ∃ code, Barcode.retail? b.symbology = some code ∧ code.Misreads b.value.toList
  | .qrcode q => f = .notEncodable ∧ Text.trim q.value.toList ≠ [] ∧
      ∃ code ∈ Text.codePoints q.value.toList, Text.isSurrogate code = true
  | _ => False

/-! ### What is encoded -/

section

open Barcode.Qr (Package LawfulPackage)

variable {α : Type} [Package]

/-- What the value of a scan code encodes to: the modules per side of a QR code, and nothing
that has a size of its own for the other codes. What is no scan code encodes to nothing. -/
def Element.encoded (e : Element α) : Except Barcode.Failure (Option Nat) :=
  match e.body with
  | .barcode b => (Barcode.normalize b.symbology b.value).map fun _ => none
  | .qrcode q => (Barcode.Qr.moduleCount q.value q.level).map some
  | _ => .ok none

/-- What has modules has more than none. -/
theorem Element.pos_of_encoded [LawfulPackage] {e : Element α} {modules : Nat}
    (h : e.encoded = .ok (some modules)) : 0 < modules := by
  rw [encoded] at h
  split at h
  · obtain ⟨_, -, ⟨⟩⟩ := map_eq_ok.mp h
  · obtain ⟨_, hcount, ⟨⟩⟩ := map_eq_ok.mp h
    exact Barcode.Qr.moduleCount_pos hcount
  · cases h

/-- A line has none. -/
theorem Element.ne_line_of_encoded {e : Element α} {modules : Nat}
    (h : e.encoded = .ok (some modules)) : e.kind ≠ .line := by
  intro hline
  obtain ⟨frame, body⟩ := e
  cases body <;> cases hline
  cases h

/-- Compiling leaves what is encoded as it is. -/
theorem Element.Keeps.encoded_eq {e compiled : Element α} (h : e.Keeps compiled) :
    compiled.encoded = e.encoded := by
  obtain ⟨frame, body⟩ := e
  obtain ⟨compiledFrame, compiledBody⟩ := compiled
  obtain ⟨-, -, hkind, hbody⟩ := h
  cases body with
  | barcode b =>
    obtain rfl : compiledBody = .barcode b := hbody (.inl rfl)
    rfl
  | qrcode q =>
    obtain rfl : compiledBody = .qrcode q := hbody (.inr (.inl rfl))
    rfl
  | _ => cases compiledBody <;> first | rfl | cases hkind

/-- A value is neither taken nor refused when encoding it fails. -/
theorem Element.scanFault_iff [LawfulPackage] {e : Element Number} {f : Fault} :
    e.ScanFault f ↔ e.encoded = .error (.fault f) := by
  obtain ⟨frame, body⟩ := e
  cases body with
  | barcode b => exact Barcode.normalize_eq_fault.symm.trans map_eq_error.symm
  | qrcode q => exact Barcode.Qr.moduleCount_eq_fault.symm.trans map_eq_error.symm
  | _ => exact ⟨fun h => h.elim, fun h => nomatch h⟩

namespace Print

variable [Scalar α]

/-- The warning about a code with so many modules per side. -/
def moduleWarnings (dpi : α) (modules : Nat) (e : Element α) :
    Except Fault (List (Warning α)) := do
  let side := Scalar.min e.frame.width e.frame.height
  let pixels ← Scalar.div side (Scalar.constant modules 1)
  if Scalar.lt pixels (Scalar.ofInt minModulePixels) then
    return [.smallModules e.id pixels dpi]
  else return []

/-- The look at a scan code first encodes its value. -/
theorem scanWarnings_eq (dpi : α) (e : Element α) :
    scanWarnings dpi e = match e.encoded with
      | .error (.refused refusal) => .ok [.refused e.id refusal]
      | .error (.fault f) => .error f
      | .ok none => .ok []
      | .ok (some modules) => moduleWarnings dpi modules e := by
  obtain ⟨frame, body⟩ := e
  cases body with
  | barcode b =>
    simp only [scanWarnings, Element.encoded]
    cases Barcode.normalize b.symbology b.value with
    | ok printed => rfl
    | error failure => cases failure <;> rfl
  | qrcode q =>
    simp only [scanWarnings, Element.encoded]
    cases Barcode.Qr.moduleCount q.value q.level with
    | ok modules => rfl
    | error failure => cases failure <;> rfl
  | _ => rfl

end Print

end

/-! ### Failures -/

section

variable {size : LabelSize Number} {dpi : Number} {e compiled : Element Number} {f : Fault}

namespace Print

/-- The box of a compiled element is there. -/
theorem exists_bounds_of_compile (h : e.compile size dpi = .ok compiled) :
    ∃ b, compiled.bounds = .ok b := by
  have hkind := (Element.keeps_of_compile h).kind
  by_cases hline : e.kind = .line
  · obtain ⟨frame, body⟩ := compiled
    cases body with
    | line line => exact ⟨_, rfl⟩
    | _ => cases hkind.trans hline
  · obtain ⟨⟨x, hx, -⟩, ⟨y, hy, -⟩, ⟨width, hwidth, -⟩, ⟨height, hheight, -⟩⟩ :=
      Element.isWhole_of_compile hline h
    rw [← hkind] at hline
    exact ⟨_, Element.bounds_of_int hline hx hy hwidth hheight⟩

/-- The look at the edges answers for every element with a box. -/
theorem edgeWarnings_of_bounds {α : Type} [Scalar α] {e : Element α} {b : Bounds α}
    (h : e.bounds = .ok b) (width height : Int) :
    edgeWarnings width height e = .ok (if b.isPast width height then [.pastEdge e.id] else []) := by
  have hedge : edgeWarnings width height e
      = if b.isPast width height then .ok [.pastEdge e.id] else .ok [] := by
    rw [edgeWarnings, h, ok_bind]
    rfl
  rw [hedge]
  cases b.isPast width height <;> rfl

variable [Barcode.Qr.Package] [Barcode.Qr.LawfulPackage]

/-- The modules of a compiled code have a size in pixels. -/
theorem exists_moduleWarnings (h : e.compile size dpi = .ok compiled) {modules : Nat}
    (hencoded : compiled.encoded = .ok (some modules)) :
    ∃ list, moduleWarnings dpi modules compiled = .ok list := by
  have hline : e.kind ≠ .line :=
    (Element.keeps_of_compile h).kind ▸ Element.ne_line_of_encoded hencoded
  obtain ⟨-, -, hwidth, hheight⟩ := Element.isWhole_of_compile hline h
  have hmodules : (0 : Int) < modules := by exact_mod_cast Element.pos_of_encoded hencoded
  obtain ⟨pixels, hpixels⟩ := Number.exists_div (hwidth.min hheight).exists_toBinary64 hmodules
  simp only [moduleWarnings, Scalar.div, Scalar.constant, hpixels, ok_bind]
  split <;> exact ⟨_, rfl⟩

/-- The look at a scan code fails when its value is neither taken nor refused. -/
theorem scanWarnings_eq_error (h : e.compile size dpi = .ok compiled) :
    scanWarnings dpi compiled = .error f ↔ e.ScanFault f := by
  rw [Element.scanFault_iff, ← (Element.keeps_of_compile h).encoded_eq, scanWarnings_eq]
  split
  · next hencoded => simp [hencoded]
  · next hencoded => simp [hencoded]
  · next hencoded => simp [hencoded]
  · next modules hencoded =>
    obtain ⟨list, hlist⟩ := exists_moduleWarnings h hencoded
    simp [hencoded, hlist]

/-- The look at a compiled element fails as the look at its value does. -/
theorem elementWarnings_eq_error {p : PrintDocument Number} (hdpi : p.dpi = dpi)
    (h : e.compile size dpi = .ok compiled) :
    elementWarnings p compiled = .error f ↔ e.ScanFault f := by
  obtain ⟨b, hb⟩ := exists_bounds_of_compile h
  rw [elementWarnings, hdpi, ← scanWarnings_eq_error h]
  simp only [bind_eq_error, edgeWarnings_of_bounds hb]
  simp [pure, Except.pure]

end Print

end

/-! ### Warnings -/

section

variable {α : Type} [Scalar α]

namespace Print

/-- The warning is about the data of a code or the size of its modules. -/
def Warning.isOfScan : Warning α → Bool
  | .refused .. | .smallModules .. => true
  | .pastEdge _ => false

variable {dpi : α} {e : Element α} {p : PrintDocument α} {list : List (Warning α)} {w : Warning α}

/-- The look at the edges warns of the element that it is taken at. -/
theorem eq_pastEdge_of_mem_edgeWarnings {width height : Int}
    (h : edgeWarnings width height e = .ok list) (hw : w ∈ list) : w = .pastEdge e.id := by
  obtain ⟨b, hb, -⟩ := bind_eq_ok.mp h
  rw [edgeWarnings_of_bounds hb] at h
  cases h
  cases hpast : b.isPast width height with
  | true => simpa [hpast] using hw
  | false => simp [hpast] at hw

variable [Barcode.Qr.Package]

/-- The look at a scan code has nothing to say, or it says one thing of the element. -/
theorem scanWarnings_cases (h : scanWarnings dpi e = .ok list) :
    list = [] ∨ (∃ refusal, list = [.refused e.id refusal]) ∨
      ∃ pixels, list = [.smallModules e.id pixels dpi] := by
  rw [scanWarnings_eq] at h
  split at h
  · cases h
    exact .inr (.inl ⟨_, rfl⟩)
  · cases h
  · cases h
    exact .inl rfl
  · obtain ⟨pixels, -, h⟩ := bind_eq_ok.mp h
    split at h <;> cases h
    · exact .inr (.inr ⟨_, rfl⟩)
    · exact .inl rfl

/-- The look at a scan code warns of scanning, under the id of its element. -/
theorem spec_of_mem_scanWarnings (h : scanWarnings dpi e = .ok list) (hw : w ∈ list) :
    w.id = e.id ∧ w.isOfScan = true := by
  obtain rfl | ⟨refusal, rfl⟩ | ⟨pixels, rfl⟩ := scanWarnings_cases h
  · cases hw
  · rw [List.mem_singleton.mp hw]
    exact ⟨rfl, rfl⟩
  · rw [List.mem_singleton.mp hw]
    exact ⟨rfl, rfl⟩

/-- All warnings about an element are those of the two looks. -/
theorem elementWarnings_eq_ok :
    elementWarnings p e = .ok list ↔ ∃ scan edge, scanWarnings p.dpi e = .ok scan ∧
      edgeWarnings p.width p.height e = .ok edge ∧ scan ++ edge = list := by
  simp only [elementWarnings, bind_eq_ok, pure_eq_ok]
  exact ⟨fun ⟨scan, hscan, edge, h⟩ => ⟨scan, edge, hscan, h⟩,
    fun ⟨scan, edge, hscan, h⟩ => ⟨scan, hscan, edge, h⟩⟩

/-- They bear its id. -/
theorem id_of_mem_elementWarnings (h : elementWarnings p e = .ok list) (hw : w ∈ list) :
    w.id = e.id := by
  obtain ⟨scan, edge, hscan, hedge, rfl⟩ := elementWarnings_eq_ok.mp h
  rcases List.mem_append.mp hw with hw | hw
  · exact (spec_of_mem_scanWarnings hscan hw).1
  · rw [eq_pastEdge_of_mem_edgeWarnings hedge hw]
    rfl

/-- Where the look at a scan code has nothing to say, the one warning left is about the edge. -/
theorem eq_pastEdge_of_mem_elementWarnings (hscan : scanWarnings p.dpi e = .ok [])
    (h : elementWarnings p e = .ok list) (hw : w ∈ list) : w = .pastEdge e.id := by
  obtain ⟨scan, edge, hscan', hedge, rfl⟩ := elementWarnings_eq_ok.mp h
  cases hscan.symm.trans hscan'
  exact eq_pastEdge_of_mem_edgeWarnings hedge hw

end Print

/-! ### Documents -/

variable {d : Document α} {dpi : α} {p : PrintDocument α}

open Print

/-- The elements for print are those of the design that are visible, compiled. -/
theorem Document.forall₂_printable (h : d.compile dpi = .ok p) :
    List.Forall₂ (fun e c => e.compile d.size dpi = .ok c) (d.elements.filter Element.isVisible)
      p.printable := by
  obtain ⟨-, -, -, -, helements⟩ := compile_eq_ok.mp h
  refine List.rel_filter (fun e c hc => ?_) helements
  show e.isVisible = true ↔ c.isVisible = true
  rw [(Element.keeps_of_compile hc).isVisible_eq]

variable [Barcode.Qr.Package]

/-- Compiling and checking are taken together, element by element. -/
theorem Print.warnings_eq (h : d.compile dpi = .ok p) :
    warnings p = (do return (← (d.elements.filter Element.isVisible).mapM
      fun e => e.compile d.size dpi >>= elementWarnings p).flatten) := by
  rw [warnings, mapM_of_forall₂ (Document.forall₂_printable h)]

/-- The warnings about a label are those about its visible elements, one after the other. -/
theorem Print.warnings_eq_ok (h : d.compile dpi = .ok p) {ws : List (Warning α)} :
    warnings p = .ok ws ↔ ∃ lists, List.Forall₂ (fun e list => ∃ c, e.compile d.size dpi = .ok c ∧
      elementWarnings p c = .ok list) (d.elements.filter Element.isVisible) lists ∧
      lists.flatten = ws := by
  simp only [warnings_eq h, bind_eq_ok, pure_eq_ok, mapM_eq_ok]

section

variable {ws : List (Warning α)} (hp : d.compile dpi = .ok p) (hws : warnings p = .ok ws)

include hp hws

/-- A warning is about a visible element of the design, and the look at what became of that
element gives it. -/
theorem Print.exists_of_mem_warnings {w : Warning α} (hw : w ∈ ws) :
    ∃ e ∈ d.elements, e.isVisible = true ∧ w.id = e.id ∧
      ∃ c list, e.compile d.size dpi = .ok c ∧ elementWarnings p c = .ok list ∧ w ∈ list := by
  obtain ⟨lists, hlists, rfl⟩ := (warnings_eq_ok hp).mp hws
  obtain ⟨list, hlist, hw⟩ := List.mem_flatten.mp hw
  obtain ⟨e, he, c, hcompile, hwarnings⟩ := exists_of_forall₂ hlists.flip list hlist
  obtain ⟨helement, hvisible⟩ := List.mem_filter.mp he
  have hid : w.id = e.id :=
    (id_of_mem_elementWarnings hwarnings hw).trans (Element.keeps_of_compile hcompile).id
  exact ⟨e, helement, hvisible, hid, c, list, hcompile, hwarnings, hw⟩

/-- What the look at a visible element gives is among the warnings. -/
theorem Print.exists_elementWarnings {e c : Element α} (he : e ∈ d.elements)
    (hvisible : e.isVisible = true) (hc : e.compile d.size dpi = .ok c) :
    ∃ list, elementWarnings p c = .ok list ∧ ∀ w ∈ list, w ∈ ws := by
  obtain ⟨lists, hlists, rfl⟩ := (warnings_eq_ok hp).mp hws
  obtain ⟨list, hlist, c', hc', hwarnings⟩ :=
    exists_of_forall₂ hlists e (List.mem_filter.mpr ⟨he, hvisible⟩)
  obtain rfl : c = c' := Except.ok.inj (hc.symm.trans hc')
  exact ⟨list, hwarnings, fun w hw => List.mem_flatten.mpr ⟨list, hlist, hw⟩⟩

end

end

section

variable {d : Document Number} {dpi : Number} {p : PrintDocument Number}
  [Barcode.Qr.Package] [Barcode.Qr.LawfulPackage]

open Print

/-- Compiling and checking an element fails as the look at its value does. -/
theorem Print.compile_elementWarnings_eq_error (h : d.compile dpi = .ok p) {e : Element Number}
    (he : e ∈ d.elements.filter Element.isVisible) {f : Fault} :
    (e.compile d.size dpi >>= elementWarnings p) = .error f ↔ e.ScanFault f := by
  obtain ⟨c, -, hc⟩ := exists_of_forall₂ (Document.forall₂_printable h) e he
  rw [hc, ok_bind]
  exact elementWarnings_eq_error (Document.compile_eq_ok.mp h).1 hc

/-- It gives warnings when the value is taken or refused. -/
theorem Print.exists_compile_elementWarnings_iff (h : d.compile dpi = .ok p) {e : Element Number}
    (he : e ∈ d.elements.filter Element.isVisible) :
    (∃ ws, (e.compile d.size dpi >>= elementWarnings p) = .ok ws) ↔ ∀ f, ¬ e.ScanFault f := by
  simp only [exists_eq_ok_iff, ne_eq, compile_elementWarnings_eq_error h he]

/-- The check of a compiled label gives its warnings exactly when the value of every
visible scan code is taken or refused. Otherwise it fails as the first visible element does
whose value is neither. -/
theorem Print.warnings_iff_no_scanFault (h : d.compile dpi = .ok p) :
    ((∃ ws, warnings p = .ok ws) ↔
      ∀ e ∈ d.elements, e.isVisible = true → ∀ f, ¬ e.ScanFault f) ∧
    ∀ f, warnings p = .error f ↔ ∃ before e after,
      d.elements.filter Element.isVisible = before ++ e :: after ∧
      (∀ other ∈ before, ∀ g, ¬ other.ScanFault g) ∧ e.ScanFault f := by
  constructor
  · have hlist : (∃ ws, warnings p = .ok ws) ↔ ∃ ws, (d.elements.filter Element.isVisible).mapM
        (fun e => e.compile d.size dpi >>= elementWarnings p) = .ok ws := by
      simp only [warnings_eq h, bind_eq_ok, pure_eq_ok]
      exact ⟨fun ⟨_, ws, hws, _⟩ => ⟨ws, hws⟩, fun ⟨ws, hws⟩ => ⟨_, ws, hws, rfl⟩⟩
    rw [hlist, exists_mapM_iff]
    refine forall_congr' fun e => ?_
    rw [List.mem_filter, and_imp]
    refine forall₂_congr fun he hvisible => ?_
    exact exists_compile_elementWarnings_iff h (List.mem_filter.mpr ⟨he, hvisible⟩)
  · intro f
    have hlist : warnings p = .error f ↔ (d.elements.filter Element.isVisible).mapM
        (fun e => e.compile d.size dpi >>= elementWarnings p) = .error f := by
      simp [warnings_eq h, bind_eq_error, pure, Except.pure]
    rw [hlist, mapM_eq_error]
    refine exists_congr fun before => exists_congr fun e => exists_congr fun after =>
      and_congr_right fun hsplit => ?_
    have hmem : ∀ other ∈ before ++ e :: after, other ∈ d.elements.filter Element.isVisible :=
      fun other hother => hsplit ▸ hother
    refine and_congr (forall₂_congr fun other hother => ?_) ?_
    · exact exists_compile_elementWarnings_iff h (hmem other (by simp [hother]))
    · exact compile_elementWarnings_eq_error h (hmem e (by simp))

end

/-- An EAN-13 code of default extent. -/
def Element.ean13 (id value : String) : Element Number where
  frame := ⟨id, .int 5, .int 5, .int 70, .int 40, .int 0, .bool false, .bool true⟩
  body := .barcode {
    value, symbology := .ean13, showText := .bool true, textPosition := .bottom
    isVariable := .bool false, dataField := none }

/-- A label with two EAN-13 codes, of which the second ends in a superscript. -/
def Document.superscripted : Document Number where
  size := LabelSize.initial
  elements := [.ean13 "plain" "590123412345", .ean13 "superscript" "12345678901²"]
  settings := Settings.initial

/-- That label compiles, and its check fails at the superscript. -/
theorem Print.warnings_superscripted :
    ∃ p, Document.superscripted.compile (.int 203) = .ok p ∧
      (¬ ∃ ws, warnings p = .ok ws) ∧ warnings p = .error .notADecimalDigit := by
  obtain ⟨p, hp⟩ : ∃ p, Document.superscripted.compile (.int 203) = .ok p :=
    exists_of_isOk (by decide +kernel)
  have hfault : (Element.ean13 "superscript" "12345678901²").ScanFault .notADecimalDigit :=
    ⟨rfl, _, rfl, by decide +kernel, by decide +kernel, '²', by decide +kernel, by decide +kernel⟩
  have hplain : ∀ g, ¬ (Element.ean13 "plain" "590123412345").ScanFault g := by
    rintro g ⟨-, code, hcode, -, -, c, hc, hvalue⟩
    cases hcode
    have hread : ((Text.trim "590123412345".toList).take 12).all
        (fun c => (Text.decimalValue? c).isSome) = true := by decide +kernel
    have hsome := List.all_eq_true.mp hread c hc
    rw [hvalue] at hsome
    cases hsome
  obtain ⟨hgives, hfails⟩ := warnings_iff_no_scanFault hp
  refine ⟨p, hp, fun h => ?_, (hfails _).mpr ⟨[_], _, [], rfl, ?_, hfault⟩⟩
  · exact hgives.mp h _ (List.mem_cons_of_mem _ List.mem_cons_self) rfl _ hfault
  · simpa using hplain

end LabelLayout
