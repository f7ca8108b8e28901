import LabelLayout.Proofs.Element.Defect

/-!
# `LabelLayout.Proofs.Element.Rule`: what the fields of an element take

`Attribute.rule` is the rule of every field: a number, a text, a text or null, one of a
set of words, or anything at all. `Element.exists_assemble_iff` says that the rules are
the whole of the check, up to one thing that no single field shows: the ends of a line
must have distances.

`Kind.admits_default` says that every default follows the rule of its field. The id is
the one field without a default.
-/

set_option autoImplicit false

namespace LabelLayout

/-- What a field takes. -/
inductive Rule where
  /-- A text that is not empty. -/
  | id
  /-- A number, which a flag is not. -/
  | number
  | text
  | textOrNull
  | word (words : List String)
  | anything

/-- Whether a value follows a rule. -/
def Rule.Admits : Rule → Datum → Prop
  | .id, v => ∃ s, s ≠ "" ∧ v = .str s
  | .number, v => ∃ x, v = .num x
  | .text, v => ∃ s, v = .str s
  | .textOrNull, v => v = .null ∨ ∃ s, v = .str s
  | .word words, v => ∃ s ∈ words, v = .str s
  | .anything, _ => True

/-- The rule of one of a set of choices: their words. -/
def Rule.choice (τ : Type) [Choice τ] : Rule := .word (Choice.names τ)

/-- The rule of a field. -/
def Attribute.rule : Attribute → Rule
  | .id => .id
  | .x | .y | .width | .height | .rotation => .number
  | .fontSize | .strokeWidth | .cornerRadius | .x2 | .y2 => .number
  | .content | .fontFamily | .color | .value | .src | .fill | .stroke => .text
  | .dataField => .textOrNull
  | .fontWeight => .choice FontWeight
  | .align => .choice TextAlign
  | .symbology => .choice Symbology
  | .textPosition => .choice TextPosition
  | .errorCorrectionLevel => .choice CorrectionLevel
  | .objectFit => .choice ObjectFit
  | .shapeType => .choice ShapeForm
  | .strokeStyle => .choice StrokeStyle
  | .locked | .visible | .lineHeight | .letterSpacing | .isVariable | .showText => .anything

/-! ### Checks and rules -/

/-- A choice is among all of its set. -/
theorem Choice.mem_all {τ : Type} [Choice τ] (choice : τ) : choice ∈ (Choice.all : List τ) :=
  List.mem_of_find?_eq_some (Choice.find_name choice)

/-- Different choices are different as plain data. -/
theorem Choice.datum_injective {τ : Type} [Choice τ] {c c' : τ}
    (h : (Choice.datum c : Datum) = Choice.datum c') : c = c' := by
  have hname : Choice.name c = Choice.name c' := Value.str.inj h
  rw [← Option.some.injEq, ← Choice.ofName?_name c, ← Choice.ofName?_name c', hname]

/-- A value is the word of a choice exactly when it follows the rule of the choices. -/
theorem Rule.admits_choice_iff {τ : Type} [Choice τ] {v : Datum} :
    (Rule.choice τ).Admits v ↔ ∃ c : τ, v = Choice.datum c := by
  constructor
  · rintro ⟨word, hword, rfl⟩
    obtain ⟨c, -, rfl⟩ := List.mem_map.mp hword
    exact ⟨c, rfl⟩
  · rintro ⟨c, rfl⟩
    exact ⟨Choice.name c, List.mem_map.mpr ⟨c, Choice.mem_all c, rfl⟩, rfl⟩

theorem Rule.admits_textOrNull_iff {v : Datum} :
    Rule.textOrNull.Admits v ↔ ∃ t, v = optionalText t := by
  constructor
  · rintro (rfl | ⟨s, rfl⟩)
    · exact ⟨none, rfl⟩
    · exact ⟨some s, rfl⟩
  · rintro ⟨_ | s, rfl⟩
    · exact .inl rfl
    · exact .inr ⟨s, rfl⟩

section

variable {fields : Fields} {a : Attribute}

theorem Fields.exists_id (h : Rule.id.Admits (fields .id)) : ∃ s, fields.id = .ok s := by
  obtain ⟨s, hs, hid⟩ := h
  exact ⟨s, id_eq_ok.mpr ⟨hs, hid⟩⟩

theorem Fields.exists_number (h : Rule.number.Admits (fields a)) :
    ∃ x, fields.number a = .ok x := by
  obtain ⟨x, hx⟩ := h
  exact ⟨x, number_eq_ok.mpr hx⟩

theorem Fields.exists_text (h : Rule.text.Admits (fields a)) : ∃ s, fields.text a = .ok s := by
  obtain ⟨s, hs⟩ := h
  exact ⟨s, text_eq_ok.mpr hs⟩

theorem Fields.exists_textOrNull (h : Rule.textOrNull.Admits (fields a)) :
    ∃ t, fields.textOrNull a = .ok t := by
  obtain ⟨t, ht⟩ := Rule.admits_textOrNull_iff.mp h
  exact ⟨t, textOrNull_eq_ok.mpr ht⟩

theorem Fields.exists_choice {τ : Type} [Choice τ] (h : (Rule.choice τ).Admits (fields a)) :
    ∃ c, fields.choice τ a = .ok c := by
  obtain ⟨c, hc⟩ := Rule.admits_choice_iff.mp h
  exact ⟨c, choice_eq_ok.mpr hc⟩

end

/-- Every default follows the rule of its field. -/
theorem Kind.admits_default (kind : Kind) {a : Attribute} (h : a ≠ .id) :
    a.rule.Admits (kind.default a) := by
  have word : ∀ {τ : Type} [Choice τ] (c : τ), (Rule.choice τ).Admits (Choice.datum c) :=
    fun c => Rule.admits_choice_iff.mpr ⟨c, rfl⟩
  cases a with
  | id => exact absurd rfl h
  | x | rotation | fontSize | strokeWidth | cornerRadius | x2 | y2 => exact ⟨_, rfl⟩
  | y | width | height => cases kind <;> exact ⟨_, rfl⟩
  | content | fontFamily | color | src | fill | stroke => exact ⟨_, rfl⟩
  | value => cases kind <;> exact ⟨_, rfl⟩
  | dataField => exact .inl rfl
  | fontWeight => exact word FontWeight.normal
  | align => exact word TextAlign.left
  | symbology => exact word Symbology.code128
  | textPosition => exact word TextPosition.bottom
  | errorCorrectionLevel => exact word CorrectionLevel.medium
  | objectFit => exact word ObjectFit.contain
  | shapeType => exact word ShapeForm.rectangle
  | strokeStyle => exact word StrokeStyle.solid
  | locked | visible | lineHeight | letterSpacing | isVariable | showText => trivial

/-! ### From rules to elements -/

section

variable {fields : Fields}

/-- A frame is made of fields that follow their rules. -/
theorem Frame.exists_assemble (h : ∀ a ∈ frameAttributes, a.rule.Admits (fields a)) :
    ∃ frame, Frame.assemble fields = .ok frame := by
  simp only [frameAttributes, List.forall_mem_cons] at h
  obtain ⟨hid, hx, hy, hwidth, hheight, hrotation, -⟩ := h
  exact exists_bind (Fields.exists_id hid) fun _ _ =>
    exists_bind (Fields.exists_number hx) fun _ _ =>
    exists_bind (Fields.exists_number hy) fun _ _ =>
    exists_bind (Fields.exists_number hwidth) fun _ _ =>
    exists_bind (Fields.exists_number hheight) fun _ _ =>
    exists_bind (Fields.exists_number hrotation) fun _ _ => ⟨_, rfl⟩

theorem TextBody.exists_assemble
    (h : ∀ a ∈ Kind.text.bodyAttributes, a.rule.Admits (fields a)) :
    ∃ body, TextBody.assemble fields = .ok body := by
  simp only [Kind.bodyAttributes, List.forall_mem_cons] at h
  obtain ⟨hcontent, hsize, hfamily, hweight, hcolor, halign, -, -, -, hfield, -⟩ := h
  exact exists_bind (Fields.exists_number hsize) fun _ _ =>
    exists_bind (Fields.exists_text hcontent) fun _ _ =>
    exists_bind (Fields.exists_text hfamily) fun _ _ =>
    exists_bind (Fields.exists_text hcolor) fun _ _ =>
    exists_bind (Fields.exists_textOrNull hfield) fun _ _ =>
    exists_bind (Fields.exists_choice hweight) fun _ _ =>
    exists_bind (Fields.exists_choice halign) fun _ _ => ⟨_, rfl⟩

theorem BarcodeBody.exists_assemble
    (h : ∀ a ∈ Kind.barcode.bodyAttributes, a.rule.Admits (fields a)) :
    ∃ body, BarcodeBody.assemble fields = .ok body := by
  simp only [Kind.bodyAttributes, List.forall_mem_cons] at h
  obtain ⟨hvalue, hsymbology, -, hposition, -, hfield, -⟩ := h
  exact exists_bind (Fields.exists_text hvalue) fun _ _ =>
    exists_bind (Fields.exists_textOrNull hfield) fun _ _ =>
    exists_bind (Fields.exists_choice hsymbology) fun _ _ =>
    exists_bind (Fields.exists_choice hposition) fun _ _ => ⟨_, rfl⟩

theorem QrBody.exists_assemble
    (h : ∀ a ∈ Kind.qrcode.bodyAttributes, a.rule.Admits (fields a)) :
    ∃ body, QrBody.assemble fields = .ok body := by
  simp only [Kind.bodyAttributes, List.forall_mem_cons] at h
  obtain ⟨hvalue, hlevel, -, hfield, -⟩ := h
  exact exists_bind (Fields.exists_text hvalue) fun _ _ =>
    exists_bind (Fields.exists_textOrNull hfield) fun _ _ =>
    exists_bind (Fields.exists_choice hlevel) fun _ _ => ⟨_, rfl⟩

theorem ImageBody.exists_assemble
    (h : ∀ a ∈ Kind.image.bodyAttributes, a.rule.Admits (fields a)) :
    ∃ body, ImageBody.assemble fields = .ok body := by
  simp only [Kind.bodyAttributes, List.forall_mem_cons] at h
  obtain ⟨hsrc, hfit, -⟩ := h
  exact exists_bind (Fields.exists_text hsrc) fun _ _ =>
    exists_bind (Fields.exists_choice hfit) fun _ _ => ⟨_, rfl⟩

theorem ShapeBody.exists_assemble
    (h : ∀ a ∈ Kind.shape.bodyAttributes, a.rule.Admits (fields a)) :
    ∃ body, ShapeBody.assemble fields = .ok body := by
  simp only [Kind.bodyAttributes, List.forall_mem_cons] at h
  obtain ⟨hform, hfill, hstroke, hwidth, hradius, -⟩ := h
  exact exists_bind (Fields.exists_text hfill) fun _ _ =>
    exists_bind (Fields.exists_text hstroke) fun _ _ =>
    exists_bind (Fields.exists_choice hform) fun _ _ =>
    exists_bind (Fields.exists_number hwidth) fun _ _ =>
    exists_bind (Fields.exists_number hradius) fun _ _ => ⟨_, rfl⟩

/-- Along each axis, the end of a line and its origin do not overflow if both are
numbers. -/
structure Fields.HaveDistances (fields : Fields) : Prop where
  across : ∀ x x2, fields .x = .num x → fields .x2 = .num x2 → ¬ x2.Overflows x
  down : ∀ y y2, fields .y = .num y → fields .y2 = .num y2 → ¬ y2.Overflows y

theorem Fields.exists_distance {origin : Attribute} {x y : Number} (hx : fields origin = .num x)
    (hover : ¬ y.Overflows x) : ∃ d, fields.distance origin y = .ok d := by
  obtain ⟨d, hd⟩ := Number.sub_of_not_overflows hover
  exact ⟨d.abs, (distance_eq_ok hx).mpr ⟨d, hd, rfl⟩⟩

/-- A line is made of fields that follow their rules, if its ends have distances. -/
theorem exists_assembleLine (h : ∀ a ∈ Kind.line.inputs, a.rule.Admits (fields a))
    (hdistances : fields.HaveDistances) : ∃ e, assembleLine fields = .ok e := by
  simp only [Kind.inputs, List.forall_mem_cons] at h
  obtain ⟨hid, ⟨x, hx⟩, ⟨y, hy⟩, hrotation, hlocked, hvisible, hx2, hy2, hstroke, hwidth, hstyle,
    -⟩ := h
  refine exists_bind (Fields.exists_number hx2) fun x2 hx2 =>
    exists_bind (Fields.exists_number hy2) fun y2 hy2 => ?_
  rw [Fields.number_eq_ok] at hx2 hy2
  refine exists_bind (Fields.exists_distance hx (hdistances.across x x2 hx hx2)) fun dx _ =>
    exists_bind (Fields.exists_distance hy (hdistances.down y y2 hy hy2)) fun dy _ => ?_
  -- The distances stand in for the extent of the frame, which was no input.
  have hframe : ∀ a ∈ frameAttributes, a.rule.Admits (fields.withExtent dx dy a) := by
    simp only [frameAttributes, List.forall_mem_cons]
    exact ⟨hid, ⟨x, hx⟩, ⟨y, hy⟩, ⟨dx, rfl⟩, ⟨dy, rfl⟩, hrotation, hlocked, hvisible,
      List.forall_mem_nil _⟩
  exact exists_bind (Frame.exists_assemble hframe) fun _ _ =>
    exists_bind (Fields.exists_text hstroke) fun _ _ =>
    exists_bind (Fields.exists_number hwidth) fun _ _ =>
    exists_bind (Fields.exists_choice hstyle) fun _ _ => ⟨_, rfl⟩

/-- Any other element is made of fields that follow their rules. -/
theorem Element.exists_assemble {kind : Kind} (hline : kind ≠ .line)
    (h : ∀ a ∈ kind.attributes, a.rule.Admits (fields a)) :
    ∃ e, Element.assemble kind fields = .ok e := by
  obtain ⟨hframe, hbody⟩ := List.forall_mem_append.mp h
  have hframe := Frame.exists_assemble hframe
  cases kind with
  | line => exact absurd rfl hline
  | text =>
    exact exists_bind hframe fun _ _ =>
      exists_bind (TextBody.exists_assemble hbody) fun _ _ => ⟨_, rfl⟩
  | barcode =>
    exact exists_bind hframe fun _ _ =>
      exists_bind (BarcodeBody.exists_assemble hbody) fun _ _ => ⟨_, rfl⟩
  | qrcode =>
    exact exists_bind hframe fun _ _ =>
      exists_bind (QrBody.exists_assemble hbody) fun _ _ => ⟨_, rfl⟩
  | image =>
    exact exists_bind hframe fun _ _ =>
      exists_bind (ImageBody.exists_assemble hbody) fun _ _ => ⟨_, rfl⟩
  | shape =>
    exact exists_bind hframe fun _ _ =>
      exists_bind (ShapeBody.exists_assemble hbody) fun _ _ => ⟨_, rfl⟩

/-! ### From elements to rules -/

/-- The fields of a frame with an id follow their rules. -/
theorem Frame.admits_get {frame : Frame Number} (hid : frame.id ≠ "") :
    ∀ a ∈ frameAttributes, a.rule.Admits (frame.get a) := by
  simp only [frameAttributes, List.forall_mem_cons]
  exact ⟨⟨frame.id, hid, rfl⟩, ⟨_, rfl⟩, ⟨_, rfl⟩, ⟨_, rfl⟩, ⟨_, rfl⟩, ⟨_, rfl⟩, trivial, trivial,
    List.forall_mem_nil _⟩

/-- The fields of a body follow their rules. -/
theorem Body.admits_get (body : Body Number) :
    ∀ a ∈ body.kind.bodyAttributes, a.rule.Admits (body.get a) := by
  have word : ∀ {τ : Type} [Choice τ] (c : τ), (Rule.choice τ).Admits (Choice.datum c) :=
    fun c => Rule.admits_choice_iff.mpr ⟨c, rfl⟩
  have field : ∀ t, Rule.textOrNull.Admits (optionalText t) :=
    fun t => Rule.admits_textOrNull_iff.mpr ⟨t, rfl⟩
  cases body with
  | text t =>
    simp only [Body.kind, Kind.bodyAttributes, List.forall_mem_cons]
    exact ⟨⟨_, rfl⟩, ⟨_, rfl⟩, ⟨_, rfl⟩, word t.fontWeight, ⟨_, rfl⟩, word t.align, trivial,
      trivial, trivial, field t.dataField, List.forall_mem_nil _⟩
  | barcode b =>
    simp only [Body.kind, Kind.bodyAttributes, List.forall_mem_cons]
    exact ⟨⟨_, rfl⟩, word b.symbology, trivial, word b.textPosition, trivial, field b.dataField,
      List.forall_mem_nil _⟩
  | qrcode q =>
    simp only [Body.kind, Kind.bodyAttributes, List.forall_mem_cons]
    exact ⟨⟨_, rfl⟩, word q.level, trivial, field q.dataField, List.forall_mem_nil _⟩
  | image i =>
    simp only [Body.kind, Kind.bodyAttributes, List.forall_mem_cons]
    exact ⟨⟨_, rfl⟩, word i.objectFit, List.forall_mem_nil _⟩
  | shape s =>
    simp only [Body.kind, Kind.bodyAttributes, List.forall_mem_cons]
    exact ⟨word s.form, ⟨_, rfl⟩, ⟨_, rfl⟩, ⟨_, rfl⟩, ⟨_, rfl⟩, List.forall_mem_nil _⟩
  | line l =>
    simp only [Body.kind, Kind.bodyAttributes, List.forall_mem_cons]
    exact ⟨⟨_, rfl⟩, ⟨_, rfl⟩, ⟨_, rfl⟩, ⟨_, rfl⟩, word l.strokeStyle, List.forall_mem_nil _⟩

/-- The fields of a valid element follow their rules. -/
theorem Element.IsValid.admits_get {e : Element Number} (h : e.IsValid) :
    ∀ a ∈ e.kind.attributes, a.rule.Admits (e.get a) := by
  rw [Kind.attributes, List.forall_mem_append]
  refine ⟨fun a ha => ?_, fun a ha => ?_⟩
  · rw [get_of_mem ha]
    exact Frame.admits_get h.id_ne_empty a ha
  · rw [get_of_notMem (Kind.notMem_frameAttributes a ha)]
    exact Body.admits_get e.body a ha

/-- The ends of a line that was assembled have distances. -/
theorem haveDistances_of_assembleLine {e : Element Number} (h : assembleLine fields = .ok e) :
    fields.HaveDistances := by
  obtain ⟨hkind, hvalid, hfields⟩ := assembleLine_eq_ok.mp h
  obtain ⟨frame, body⟩ := e
  cases body with
  | line line =>
    obtain ⟨⟨dx, hdx, -⟩, dy, hdy, -⟩ := Frame.spanning_eq_ok.mp (hvalid.spans line rfl)
    -- The fields are the element's own, and those have a difference.
    refine ⟨fun x x2 hx hx2 hover => ?_, fun y y2 hy hy2 hover => ?_⟩
    · rw [hfields .x (by decide)] at hx
      rw [hfields .x2 (by decide)] at hx2
      cases hx
      cases hx2
      rw [Number.sub_of_overflows hover] at hdx
      cases hdx
    · rw [hfields .y (by decide)] at hy
      rw [hfields .y2 (by decide)] at hy2
      cases hy
      cases hy2
      rw [Number.sub_of_overflows hover] at hdy
      cases hdy
  | _ => cases hkind

/-- Fields make an element exactly when each that is looked at follows its rule and, for
a line, the ends have distances. -/
theorem Element.exists_assemble_iff {kind : Kind} :
    (∃ e, Element.assemble kind fields = .ok e) ↔
      (∀ a ∈ kind.inputs, a.rule.Admits (fields a)) ∧
        (kind = .line → fields.HaveDistances) := by
  constructor
  · rintro ⟨e, h⟩
    obtain ⟨rfl, hvalid, hfields⟩ := assemble_eq_ok.mp h
    refine ⟨fun a ha => ?_, fun hline => ?_⟩
    · rw [hfields a ha]
      exact hvalid.admits_get a (Kind.mem_attributes_of_mem_inputs ha)
    · rw [hline] at h
      exact haveDistances_of_assembleLine h
  · rintro ⟨hrules, hdistances⟩
    by_cases hline : kind = .line
    · subst hline
      exact exists_assembleLine hrules (hdistances rfl)
    · refine exists_assemble hline fun a ha => hrules a ?_
      exact (Kind.mem_inputs_or ha).resolve_right fun h => hline h.1

end

end LabelLayout
