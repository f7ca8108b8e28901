import LabelLayout.Proofs.Design.Grammar
import LabelLayout.Proofs.Design.RoundTrip
import LabelLayout.Proofs.Print.Compile

/-!
# `LabelLayout.Proofs.Print.Render`: which loaded documents can be printed

The numbers of a design file may be too large for the arithmetic of printing, so the file
is asked for moderate ones: `Value.numbersWithin` bounds every number in it. Filling a
document in from a context changes texts only, so no context matters.

Every check of the loader is then enough for the printer but one that is not made. Letter
spacings are not looked at when a file is loaded, and printing multiplies them.
`Document.render_iff_isMetric` is the main statement. A loaded document with moderate
numbers is rendered exactly when each letter spacing in it is null, a number or a flag.
-/

set_option autoImplicit false

namespace LabelLayout

/-! ### Values with moderate numbers -/

namespace Value

mutual

/-- Whether every number in a value is no further from zero than a bound. -/
def numbersWithin (bound : Nat) : Datum → Bool
  | .num x => x.abs.le (.int bound)
  | .list items => itemsWithin bound items
  | .object members => membersWithin bound members
  | _ => true

def itemsWithin (bound : Nat) : List Datum → Bool
  | [] => true
  | v :: rest => numbersWithin bound v && itemsWithin bound rest

def membersWithin (bound : Nat) : List (String × Datum) → Bool
  | [] => true
  | (_, v) :: rest => numbersWithin bound v && membersWithin bound rest

end

variable {bound : Nat}

theorem itemsWithin_iff {items : List Datum} :
    itemsWithin bound items = true ↔ ∀ v ∈ items, v.numbersWithin bound = true := by
  induction items with
  | nil => simp [itemsWithin]
  | cons v items ih => rw [itemsWithin, Bool.and_eq_true, ih, List.forall_mem_cons]

theorem membersWithin_iff {members : List (String × Datum)} :
    membersWithin bound members = true ↔ ∀ m ∈ members, m.2.numbersWithin bound = true := by
  induction members with
  | nil => simp [membersWithin]
  | cons m members ih =>
    obtain ⟨name, v⟩ := m
    rw [membersWithin, Bool.and_eq_true, ih, List.forall_mem_cons]

/-- A member of a value has no numbers that the value does not have. -/
theorem numbersWithin_of_member {v w : Datum} {name : String} (hv : v.numbersWithin bound = true)
    (h : v.member? name = some w) : w.numbersWithin bound = true := by
  cases v with
  | object members => exact membersWithin_iff.mp hv _ (Json.mem_of_lookup h)
  | _ => cases h

/-- A metric that is there brings a number, and no more of one than there is in it. -/
theorem IsMetric.exists_operand_within {v : Datum} (h : v.IsMetric) (hnull : v ≠ .null)
    (hbound : v.numbersWithin bound = true) (hpos : 0 < bound) :
    ∃ x, v.operand = .ok x ∧ x.IsWithin bound := by
  rcases h with rfl | ⟨flag, rfl⟩ | ⟨x, rfl⟩
  · exact absurd rfl hnull
  · refine ⟨.int flag.toNat, rfl, Number.isWithin_int.mpr ?_⟩
    cases flag
    · exact Nat.zero_le _
    · exact hpos
  · exact ⟨x, rfl, Number.isWithin_of_abs_le hbound⟩

end Value

open Value

/-! ### Elements with moderate numbers -/

/-- An element whose fields have moderate numbers, but for the extent of a line, which no
file gives. -/
def Element.IsModerate (e : Element Number) : Prop :=
  ∀ a ∈ e.kind.inputs, (e.get a).numbersWithin 1000000 = true

/-- The defaults of a kind are moderate. -/
theorem Kind.numbersWithin_default (kind : Kind) (a : Attribute) :
    (kind.default a).numbersWithin 1000000 = true := by
  cases kind <;> cases a <;> decide +kernel

/-- An element that a moderate record describes is moderate. -/
theorem Element.Describes.isModerate {v : Datum} {e : Element Number} (h : Describes v e)
    (hv : v.numbersWithin 1000000 = true) : e.IsModerate := by
  intro a ha
  rw [h.fields a ha, Fields.given]
  cases hmember : v.member? a.key with
  | none => exact e.kind.numbersWithin_default a
  | some w => exact numbersWithin_of_member hv hmember

section

variable {e : Element Number} (context : Datum)

/-- Filling in from a context keeps the kind. -/
theorem Element.kind_resolve : (e.resolve context).kind = e.kind := by
  obtain ⟨frame, body⟩ := e
  cases body <;> rfl

/-- It keeps every field but the text that is shown or scanned. -/
theorem Element.get_resolve {a : Attribute} (hcontent : a ≠ .content) (hvalue : a ≠ .value) :
    (e.resolve context).get a = e.get a := by
  obtain ⟨frame, body⟩ := e
  by_cases ha : a ∈ frameAttributes
  · rw [get_of_mem ha, get_of_mem ha]
    rfl
  · rw [get_of_notMem ha, get_of_notMem ha]
    cases body <;> cases a <;> first | rfl | contradiction

/-- That text is no number. -/
theorem Element.numbersWithin_get_text (bound : Nat) :
    (e.get .content).numbersWithin bound = true ∧ (e.get .value).numbersWithin bound = true := by
  obtain ⟨frame, body⟩ := e
  cases body <;> exact ⟨rfl, rfl⟩

theorem Element.IsModerate.resolve (h : e.IsModerate) : (e.resolve context).IsModerate := by
  intro a ha
  rw [kind_resolve] at ha
  by_cases hcontent : a = .content
  · rw [hcontent]
    exact (numbersWithin_get_text _).1
  by_cases hvalue : a = .value
  · rw [hvalue]
    exact (numbersWithin_get_text _).2
  rw [get_resolve context hcontent hvalue]
  exact h a ha

/-- A number among the fields of a moderate element is moderate. -/
theorem Element.IsModerate.isWithin (h : e.IsModerate) {a : Attribute} (ha : a ∈ e.kind.inputs)
    {x : Number} (hx : e.get a = .num x) : x.IsWithin 1000000 := by
  have hle := h a ha
  rw [hx] at hle
  exact Number.isWithin_of_abs_le hle

end

/-! ### Compiling -/

namespace Print

variable {dpi : Number} {v : Datum}

/-- A text metric that printing can use becomes one in pixels. -/
theorem exists_metricToPixels (hdpi : dpi.IsWithin 10000) (hv : v.numbersWithin 1000000 = true)
    (h : v.IsMetric) : ∃ w, metricToPixels dpi v = .ok w := by
  by_cases hnull : v = .null
  · exact ⟨.null, by rw [hnull, metricToPixels]⟩
  obtain ⟨x, hx, hwithin⟩ := h.exists_operand_within hnull hv (by decide)
  obtain ⟨z, hz⟩ := exists_pixelsPerPoint hdpi
  obtain ⟨y, hy⟩ := hwithin.exists_mul_float (by decide) z
  exact ⟨.num y, by rw [metricToPixels_eq hnull, hz, ok_bind, hx, ok_bind, hy, ok_bind]⟩

/-- Any other is a fault. -/
theorem metricToPixels_of_not_isMetric (hdpi : dpi.IsWithin 10000) (h : ¬ v.IsMetric) :
    metricToPixels dpi v = .error .operand := by
  have hnull : v ≠ .null := fun hnull => h (.inl hnull)
  obtain ⟨z, hz⟩ := exists_pixelsPerPoint hdpi
  rw [metricToPixels_eq hnull, hz, ok_bind, Value.operand_of_not_isMetric h, error_bind]

end Print

section

variable {size : LabelSize Number} {dpi : Number} {e : Element Number}

open Print

/-- The sides of a label that printing has room for. -/
structure LabelSize.IsModerate (size : LabelSize Number) : Prop where
  width : size.width.IsWithin 1000000
  height : size.height.IsWithin 1000000

namespace Element.IsModerate

variable (h : e.IsModerate) (hsize : size.IsModerate) (hdpi : dpi.IsWithin 10000)

include h hsize hdpi in
/-- The origin of a moderate element lies at whole pixels. -/
theorem exists_origin : ∃ x y : Int,
    percentToPixels size.width dpi e.frame.x = .ok (.int x) ∧
      percentToPixels size.height dpi e.frame.y = .ok (.int y) := by
  have hmem : .x ∈ e.kind.inputs ∧ .y ∈ e.kind.inputs := by cases e.kind <;> decide
  obtain ⟨x, hx⟩ := exists_percentToPixels hsize.width hdpi (h.isWithin hmem.1 rfl)
  obtain ⟨y, hy⟩ := exists_percentToPixels hsize.height hdpi (h.isWithin hmem.2 rfl)
  exact ⟨x, y, hx, hy⟩

include h hsize hdpi in
/-- So does the extent of one that is no line. -/
theorem exists_extent (hline : e.kind ≠ .line) : ∃ width height : Int,
    percentToPixels size.width dpi e.frame.width = .ok (.int width) ∧
      percentToPixels size.height dpi e.frame.height = .ok (.int height) := by
  have hmem : .width ∈ e.kind.inputs ∧ .height ∈ e.kind.inputs := by
    cases hkind : e.kind with
    | line => exact absurd hkind hline
    | _ => decide
  obtain ⟨width, hwidth⟩ := exists_percentToPixels hsize.width hdpi (h.isWithin hmem.1 rfl)
  obtain ⟨height, hheight⟩ := exists_percentToPixels hsize.height hdpi (h.isWithin hmem.2 rfl)
  exact ⟨width, height, hwidth, hheight⟩

include h hsize hdpi in
/-- A moderate line can be compiled. -/
theorem exists_compile_line (hline : e.kind = .line) : ∃ c, e.compile size dpi = .ok c := by
  obtain ⟨x, y, hx, hy⟩ := h.exists_origin hsize hdpi
  obtain ⟨frame, body⟩ := e
  cases body with
  | line line =>
    obtain ⟨x2, hx2⟩ := exists_percentToPixels hsize.width hdpi
      (h.isWithin (show .x2 ∈ Kind.inputs .line by decide) rfl)
    obtain ⟨y2, hy2⟩ := exists_percentToPixels hsize.height hdpi
      (h.isWithin (show .y2 ∈ Kind.inputs .line by decide) rfl)
    obtain ⟨w, hw⟩ := exists_pointsToPixels
      (h.isWithin (show .strokeWidth ∈ Kind.inputs .line by decide) rfl) hdpi
    -- The distances of whole pixels are integers.
    exact ⟨_, (compile_line_eq_ok rfl).mpr ⟨_, _, _, _, w, _, hx, hy, hx2, hy2, hw, rfl, rfl⟩⟩
  | _ => cases hline

include h hdpi in
/-- The body of a moderate element can be compiled if its letter spacing is a metric. -/
theorem exists_compileBody (hmetric : (e.get .letterSpacing).IsMetric) :
    ∃ body, compileBody dpi e.body = .ok body := by
  obtain ⟨frame, body⟩ := e
  cases body with
  | text t =>
    have hspacing := h .letterSpacing (show _ ∈ Kind.inputs .text by decide)
    obtain ⟨fontSize, hfontSize⟩ := exists_pointsToPixels
      (h.isWithin (show .fontSize ∈ Kind.inputs .text by decide) rfl) hdpi
    obtain ⟨letterSpacing, hletterSpacing⟩ := exists_metricToPixels hdpi hspacing hmetric
    exact ⟨_, bind_eq_ok.mpr ⟨fontSize, hfontSize, bind_eq_ok.mpr ⟨_, hletterSpacing, rfl⟩⟩⟩
  | shape s =>
    obtain ⟨strokeWidth, hstrokeWidth⟩ := exists_pointsToPixels
      (h.isWithin (show .strokeWidth ∈ Kind.inputs .shape by decide) rfl) hdpi
    obtain ⟨cornerRadius, hcornerRadius⟩ := exists_pointsToPixels
      (h.isWithin (show .cornerRadius ∈ Kind.inputs .shape by decide) rfl) hdpi
    exact ⟨_, bind_eq_ok.mpr ⟨strokeWidth, hstrokeWidth, bind_eq_ok.mpr ⟨_, hcornerRadius, rfl⟩⟩⟩
  | _ => exact ⟨_, rfl⟩

include h hsize hdpi in
/-- So can the element. -/
theorem exists_compile (hmetric : (e.get .letterSpacing).IsMetric) :
    ∃ c, e.compile size dpi = .ok c := by
  by_cases hline : e.kind = .line
  · exact h.exists_compile_line hsize hdpi hline
  · obtain ⟨x, y, hx, hy⟩ := h.exists_origin hsize hdpi
    obtain ⟨width, height, hwidth, hheight⟩ := h.exists_extent hsize hdpi hline
    obtain ⟨body, hbody⟩ := h.exists_compileBody hdpi hmetric
    exact ⟨_, (compile_box_eq_ok hline).mpr ⟨_, _, _, _, body, hx, hy, hwidth, hheight, hbody, rfl⟩⟩

include h hsize hdpi in
/-- A letter spacing that is no metric is the one fault of a moderate element. -/
theorem compile_of_not_isMetric (hmetric : ¬ (e.get .letterSpacing).IsMetric) :
    e.compile size dpi = .error .operand := by
  obtain ⟨x, y, hx, hy⟩ := h.exists_origin hsize hdpi
  obtain ⟨frame, body⟩ := e
  cases body with
  | text t =>
    obtain ⟨width, height, hwidth, hheight⟩ :=
      h.exists_extent hsize hdpi (show Kind.text ≠ .line by decide)
    obtain ⟨fontSize, hfontSize⟩ := exists_pointsToPixels
      (h.isWithin (show .fontSize ∈ Kind.inputs .text by decide) rfl) hdpi
    have hspacing : metricToPixels dpi t.letterSpacing = .error .operand :=
      metricToPixels_of_not_isMetric hdpi hmetric
    simp only [Element.compile, compileBody, hx, hy, hwidth, hheight, hfontSize, hspacing, ok_bind,
      error_bind]
  -- Other kinds have no letter spacing.
  | _ => exact absurd (.inl rfl) hmetric

include h hsize hdpi in
theorem exists_compile_iff :
    (∃ c, e.compile size dpi = .ok c) ↔ (e.get .letterSpacing).IsMetric := by
  refine ⟨fun ⟨c, hc⟩ => ?_, h.exists_compile hsize hdpi⟩
  by_contra hmetric
  cases hc.symm.trans (h.compile_of_not_isMetric hsize hdpi hmetric)

include h hsize hdpi in
theorem eq_operand_of_compile {f : Fault} (hf : e.compile size dpi = .error f) : f = .operand := by
  by_cases hmetric : (e.get .letterSpacing).IsMetric
  · obtain ⟨c, hc⟩ := h.exists_compile hsize hdpi hmetric
    cases hc.symm.trans hf
  · exact Except.error.inj (hf.symm.trans (h.compile_of_not_isMetric hsize hdpi hmetric))

end Element.IsModerate

end

/-! ### Documents -/

/-- A document with a label and elements of moderate numbers. -/
structure Document.IsModerate (d : Document Number) : Prop where
  size : d.size.IsModerate
  elements : ∀ e ∈ d.elements, e.IsModerate

/-- A document that a moderate record describes is moderate. -/
theorem Document.Describes.isModerate {v : Datum} {d : Document Number} (h : Describes v d)
    (hv : v.numbersWithin 1000000 = true) : d.IsModerate := by
  obtain ⟨⟨size, hsize, hdescribes⟩, ⟨entries, hentries, helements⟩, -⟩ := h
  have hsizeWithin := numbersWithin_of_member hv hsize
  constructor
  · exact ⟨Number.isWithin_of_abs_le (numbersWithin_of_member hsizeWithin hdescribes.width),
      Number.isWithin_of_abs_le (numbersWithin_of_member hsizeWithin hdescribes.height)⟩
  · intro e he
    obtain ⟨entry, hentry, hdescribes⟩ := exists_of_forall₂ helements.flip e he
    have hlist := numbersWithin_of_member hv hentries
    exact hdescribes.isModerate (itemsWithin_iff.mp hlist entry hentry)

theorem Document.IsModerate.resolve {d : Document Number} (h : d.IsModerate) (context : Datum) :
    (d.resolve context).IsModerate := by
  refine ⟨h.size, fun filled hfilled => ?_⟩
  obtain ⟨e, he, rfl⟩ := List.mem_map.mp hfilled
  exact (h.elements e he).resolve context

section

variable {d : Document Number} {dpi : Number}

/-- A moderate document is compiled when each of its letter spacings is a metric, and an
operand is at fault otherwise. -/
theorem Document.IsModerate.compile_iff (h : d.IsModerate) (hdpi : dpi.IsWithin 10000) :
    ((∃ p, d.compile dpi = .ok p) ↔ ∀ e ∈ d.elements, (e.get .letterSpacing).IsMetric) ∧
      ∀ f, d.compile dpi = .error f → f = .operand := by
  obtain ⟨width, hwidth⟩ := Print.exists_inchesToPixels h.size.width hdpi
  obtain ⟨height, hheight⟩ := Print.exists_inchesToPixels h.size.height hdpi
  have hcompile : d.compile dpi = (d.elements.mapM (Element.compile d.size dpi) >>= fun elements =>
      .ok { dpi, width, height, size := d.size, elements }) := by
    simp only [Document.compile, Print.canvasSize, hwidth, hheight, ok_bind]
    rfl
  rw [hcompile]
  constructor
  · constructor
    · rintro ⟨p, hp⟩ e he
      obtain ⟨elements, helements, -⟩ := bind_eq_ok.mp hp
      rw [← (h.elements e he).exists_compile_iff h.size hdpi]
      exact exists_mapM_iff.mp ⟨elements, helements⟩ e he
    · intro hmetric
      exact exists_bind (exists_mapM fun e he =>
        (h.elements e he).exists_compile h.size hdpi (hmetric e he)) fun _ _ => ⟨_, rfl⟩
  · intro f hf
    rcases bind_eq_error.mp hf with hf | ⟨_, -, hf⟩
    · obtain ⟨before, e, after, helements, -, hf⟩ := mapM_eq_error.mp hf
      have he : e ∈ d.elements := by simp [helements]
      exact (h.elements e he).eq_operand_of_compile h.size hdpi hf
    · cases hf

/-- A document that was loaded from a file with moderate numbers is rendered at 1 to 10000
dots per inch, whatever the context, exactly when every letter spacing in it is null, a
number or a flag. Any other letter spacing is an operand that is no number, and there is no
other fault. -/
theorem Document.render_iff_isMetric {text : String} {v : Datum} {n : Int}
    (hread : Json.read text = .ok v) (hbound : v.numbersWithin 1000000 = true)
    (himported : imported text = .ok (some d)) (hlow : 1 ≤ n) (hhigh : n ≤ 10000)
    (context : Datum) :
    ((∃ p, d.render (.int n) context = .ok p) ↔
        ∀ e ∈ d.elements, (e.get .letterSpacing).IsMetric) ∧
      ∀ f, d.render (.int n) context = .error f → f = .operand := by
  obtain ⟨w, hw, hrecord⟩ := imported_eq_some himported
  obtain rfl : v = w := Except.ok.inj (hread.symm.trans hw)
  have hmoderate := (isDesign_of_ofRecord hrecord).2.isModerate hbound
  have hdpi : (Number.int n).IsWithin 10000 := Number.isWithin_int.mpr (by omega)
  obtain ⟨hiff, hfault⟩ := (hmoderate.resolve context).compile_iff hdpi
  refine ⟨hiff.trans ?_, hfault⟩
  -- A context fills in no letter spacing.
  simp only [Document.resolve, List.forall_mem_map,
    Element.get_resolve context (show Attribute.letterSpacing ≠ .content by decide)
      (show Attribute.letterSpacing ≠ .value by decide)]

end

/-- A design file with a text whose letter spacing is a text. -/
def Document.textWithTextSpacing : String :=
  "\x7b\"size\": \x7b\"width\": 2, \"height\": 1\x7d, \"elements\": [" ++
    "\x7b\"type\": \"text\", \"id\": \"a\", \"visible\": false, \"letterSpacing\": \"2\"\x7d]\x7d"

/-- The document of that file. -/
def Document.withTextSpacing : Document Number where
  size := ⟨.str "Custom", .int 2, .int 1, .custom⟩
  elements := [
    ⟨⟨"a", .fraction 5 1, .fraction 5 1, .fraction 50 1, .fraction 25 1, .fraction 0 1,
      .bool false, .bool false⟩,
      .text {
        content := "Label Text", fontSize := .fraction 14 1, fontFamily := "Arial"
        fontWeight := .normal, color := "#000000", align := .left, lineHeight := .null
        letterSpacing := .str "2", isVariable := .bool false, dataField := none }⟩]
  settings := Settings.initial

/-- That file is loaded, and its document is not rendered, though its one element is hidden. -/
theorem Document.not_render_withTextSpacing :
    imported textWithTextSpacing = .ok (some withTextSpacing) ∧
      withTextSpacing.render (.int 203) .null = .error .operand := by
  have himported : imported textWithTextSpacing = .ok (some withTextSpacing) := by decide +kernel
  have hnumbers : (Json.read textWithTextSpacing).map (Value.numbersWithin 1000000) = .ok true := by
    decide +kernel
  obtain ⟨v, hread, -⟩ := imported_eq_some himported
  have hbound : v.numbersWithin 1000000 = true := by
    rw [hread] at hnumbers
    exact Except.ok.inj hnumbers
  obtain ⟨hiff, hfault⟩ :=
    render_iff_isMetric (n := 203) hread hbound himported (by decide) (by decide) .null
  refine ⟨himported, ?_⟩
  cases hrender : withTextSpacing.render (.int 203) .null with
  | ok p =>
    rcases hiff.mp ⟨p, hrender⟩ _ (List.mem_singleton.mpr rfl) with h | ⟨_, h⟩ | ⟨_, h⟩ <;> cases h
  | error f => rw [hfault f hrender]

end LabelLayout
