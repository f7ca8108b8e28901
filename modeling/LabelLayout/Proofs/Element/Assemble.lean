import LabelLayout.Element.Assemble
import LabelLayout.Proofs.Except

/-!
# `LabelLayout.Proofs.Element.Assemble`: what assembling gives

`Element.assemble_eq_ok` says exactly when fields make an element: the element is
valid, and the fields are its own. A field that is passed over, the extent of a
line, may hold anything. So a valid element is assembled from its own fields
(`Element.assemble_get`), and no other element ever is.

`Element.IsValid` is what no single field shows: the id is not empty, and the frame
of a line is the one that its ends span.
-/

set_option autoImplicit false

namespace LabelLayout

/-! ### Single fields -/

section

variable {fields : Fields} {a : Attribute}

theorem Fields.number_eq_ok {x : Number} : fields.number a = .ok x ↔ fields a = .num x := by
  rw [Fields.number]
  cases fields a <;> simp [Check.number]

theorem Fields.text_eq_ok {s : String} : fields.text a = .ok s ↔ fields a = .str s := by
  rw [Fields.text]
  cases fields a <;> simp [Check.text]

theorem Fields.textOrNull_eq_ok {t : Option String} :
    fields.textOrNull a = .ok t ↔ fields a = optionalText t := by
  rw [Fields.textOrNull]
  cases fields a <;> cases t <;> simp [Check.textOrNull, optionalText]

theorem Fields.id_eq_ok {s : String} : fields.id = .ok s ↔ s ≠ "" ∧ fields .id = .str s := by
  rw [Fields.id]
  cases fields .id with
  | str t =>
    by_cases ht : t = ""
    · subst ht
      show Except.error _ = Except.ok s ↔ _
      simp only [reduceCtorEq, Value.str.injEq, false_iff]
      rintro ⟨h, rfl⟩
      exact h rfl
    · simp only [String.isEmpty_iff, ht, if_false, Except.ok.injEq, Value.str.injEq]
      constructor
      · rintro rfl
        exact ⟨ht, rfl⟩
      · exact And.right
  | _ => simp

end

/-- A word is one of a set exactly when it is the word of the choice. -/
theorem Check.choice_eq_ok {τ : Type} [Choice τ] {field : String} {v : Datum} {c : τ} :
    Check.choice τ field v = .ok c ↔ v = Choice.datum c := by
  constructor
  · intro h
    cases v with
    | str word =>
      rw [Check.choice] at h
      cases hname : (Choice.ofName? word : Option τ) with
      | none =>
        simp [hname] at h
      | some choice =>
        simp [hname] at h
        rw [Choice.datum, ← h, Choice.name_of_ofName? hname]
    | _ => simp [Check.choice] at h
  · rintro rfl
    simp [Check.choice, Choice.datum]

theorem Fields.choice_eq_ok {τ : Type} [Choice τ] {fields : Fields} {a : Attribute} {c : τ} :
    fields.choice τ a = .ok c ↔ fields a = Choice.datum c :=
  Check.choice_eq_ok

/-! ### Frames and bodies -/

variable {fields : Fields}

/-- Fields make a frame exactly when they are the fields of that frame. -/
theorem Frame.assemble_eq_ok {frame : Frame Number} :
    Frame.assemble fields = .ok frame ↔
      frame.id ≠ "" ∧ ∀ a ∈ frameAttributes, fields a = frame.get a := by
  obtain ⟨id, x, y, width, height, rotation, locked, visible⟩ := frame
  simp only [Frame.assemble, bind_eq_ok, Fields.id_eq_ok, Fields.number_eq_ok, pure_eq_ok,
    frameAttributes, List.forall_mem_cons, Frame.get, Frame.mk.injEq]
  constructor
  · rintro ⟨_, ⟨hid, hfid⟩, _, hx, _, hy, _, hwidth, _, hheight, _, hrotation, rfl, rfl, rfl, rfl,
      rfl, rfl, rfl, rfl⟩
    exact ⟨hid, hfid, hx, hy, hwidth, hheight, hrotation, rfl, rfl, by simp⟩
  · rintro ⟨hid, hfid, hx, hy, hwidth, hheight, hrotation, hlocked, hvisible, -⟩
    exact ⟨_, ⟨hid, hfid⟩, _, hx, _, hy, _, hwidth, _, hheight, _, hrotation, rfl, rfl, rfl, rfl,
      rfl, rfl, hlocked, hvisible⟩

theorem TextBody.assemble_eq_ok {body : TextBody Number} :
    TextBody.assemble fields = .ok body ↔
      ∀ a ∈ Kind.text.bodyAttributes, fields a = body.get a := by
  obtain ⟨content, fontSize, fontFamily, fontWeight, color, align, lineHeight, letterSpacing,
    isVariable, dataField⟩ := body
  simp only [TextBody.assemble, bind_eq_ok, Fields.number_eq_ok, Fields.text_eq_ok,
    Fields.textOrNull_eq_ok, Fields.choice_eq_ok, pure_eq_ok, Kind.bodyAttributes,
    List.forall_mem_cons, TextBody.get, TextBody.mk.injEq]
  constructor
  · rintro ⟨_, hsize, _, hcontent, _, hfamily, _, hcolor, _, hfield, _, hweight, _, halign,
      rfl, rfl, rfl, rfl, rfl, rfl, rfl, rfl, rfl, rfl⟩
    exact ⟨hcontent, hsize, hfamily, hweight, hcolor, halign, rfl, rfl, rfl, hfield, by simp⟩
  · rintro ⟨hcontent, hsize, hfamily, hweight, hcolor, halign, hheight, hspacing, hvariable,
      hfield, -⟩
    exact ⟨_, hsize, _, hcontent, _, hfamily, _, hcolor, _, hfield, _, hweight, _, halign,
      rfl, rfl, rfl, rfl, rfl, rfl, hheight, hspacing, hvariable, rfl⟩

theorem BarcodeBody.assemble_eq_ok {body : BarcodeBody Number} :
    BarcodeBody.assemble fields = .ok body ↔
      ∀ a ∈ Kind.barcode.bodyAttributes, fields a = body.get a := by
  obtain ⟨value, symbology, showText, textPosition, isVariable, dataField⟩ := body
  simp only [BarcodeBody.assemble, bind_eq_ok, Fields.text_eq_ok, Fields.textOrNull_eq_ok,
    Fields.choice_eq_ok, pure_eq_ok, Kind.bodyAttributes, List.forall_mem_cons, BarcodeBody.get,
    BarcodeBody.mk.injEq]
  constructor
  · rintro ⟨_, hvalue, _, hfield, _, hsymbology, _, hposition, rfl, rfl, rfl, rfl, rfl, rfl⟩
    exact ⟨hvalue, hsymbology, rfl, hposition, rfl, hfield, by simp⟩
  · rintro ⟨hvalue, hsymbology, hshow, hposition, hvariable, hfield, -⟩
    exact ⟨_, hvalue, _, hfield, _, hsymbology, _, hposition, rfl, rfl, hshow, rfl, hvariable, rfl⟩

theorem QrBody.assemble_eq_ok {body : QrBody Number} :
    QrBody.assemble fields = .ok body ↔
      ∀ a ∈ Kind.qrcode.bodyAttributes, fields a = body.get a := by
  obtain ⟨value, level, isVariable, dataField⟩ := body
  simp only [QrBody.assemble, bind_eq_ok, Fields.text_eq_ok, Fields.textOrNull_eq_ok,
    Fields.choice_eq_ok, pure_eq_ok, Kind.bodyAttributes, List.forall_mem_cons, QrBody.get,
    QrBody.mk.injEq]
  constructor
  · rintro ⟨_, hvalue, _, hfield, _, hlevel, rfl, rfl, rfl, rfl⟩
    exact ⟨hvalue, hlevel, rfl, hfield, by simp⟩
  · rintro ⟨hvalue, hlevel, hvariable, hfield, -⟩
    exact ⟨_, hvalue, _, hfield, _, hlevel, rfl, rfl, hvariable, rfl⟩

theorem ImageBody.assemble_eq_ok {body : ImageBody} :
    ImageBody.assemble fields = .ok body ↔
      ∀ a ∈ Kind.image.bodyAttributes, fields a = body.get a := by
  obtain ⟨src, objectFit⟩ := body
  simp only [ImageBody.assemble, bind_eq_ok, Fields.text_eq_ok, Fields.choice_eq_ok,
    pure_eq_ok, Kind.bodyAttributes, List.forall_mem_cons, ImageBody.get, ImageBody.mk.injEq]
  constructor
  · rintro ⟨_, hsrc, _, hfit, rfl, rfl⟩
    exact ⟨hsrc, hfit, by simp⟩
  · rintro ⟨hsrc, hfit, -⟩
    exact ⟨_, hsrc, _, hfit, rfl, rfl⟩

theorem ShapeBody.assemble_eq_ok {body : ShapeBody Number} :
    ShapeBody.assemble fields = .ok body ↔
      ∀ a ∈ Kind.shape.bodyAttributes, fields a = body.get a := by
  obtain ⟨form, fill, stroke, strokeWidth, cornerRadius⟩ := body
  simp only [ShapeBody.assemble, bind_eq_ok, Fields.number_eq_ok, Fields.text_eq_ok,
    Fields.choice_eq_ok, pure_eq_ok, Kind.bodyAttributes, List.forall_mem_cons, ShapeBody.get,
    ShapeBody.mk.injEq]
  constructor
  · rintro ⟨_, hfill, _, hstroke, _, hform, _, hwidth, _, hradius, rfl, rfl, rfl, rfl, rfl⟩
    exact ⟨hform, hfill, hstroke, hwidth, hradius, by simp⟩
  · rintro ⟨hform, hfill, hstroke, hwidth, hradius, -⟩
    exact ⟨_, hfill, _, hstroke, _, hform, _, hwidth, _, hradius, rfl, rfl, rfl, rfl, rfl⟩

/-! ### Elements -/

/-- What the single fields of an element do not show: its id is not empty, and a line's
frame is the one that its ends span. -/
structure Element.IsValid (e : Element Number) : Prop where
  id_ne_empty : e.id ≠ ""
  spans : ∀ line, e.body = .line line → e.frame.spanning line.x2 line.y2 = .ok e.frame

/-- The fields that an element of a kind is assembled from. The extent of a line's
frame is derived. -/
def Kind.inputs : Kind → List Attribute
  | .line => [.id, .x, .y, .rotation, .locked, .visible, .x2, .y2, .stroke, .strokeWidth,
      .strokeStyle]
  | kind => kind.attributes

theorem Kind.id_mem_inputs (kind : Kind) : .id ∈ kind.inputs := by cases kind <;> decide

/-- A field of the frame is read from the frame. -/
theorem Element.get_of_mem {a : Attribute} (h : a ∈ frameAttributes) (e : Element Number) :
    e.get a = e.frame.get a := if_pos h

/-- Any other field is read from the body. -/
theorem Element.get_of_notMem {a : Attribute} (h : a ∉ frameAttributes) (e : Element Number) :
    e.get a = e.body.get a := if_neg h

/-- No field of a body is one of the frame. -/
theorem Kind.notMem_frameAttributes {kind : Kind} :
    ∀ a ∈ kind.bodyAttributes, a ∉ frameAttributes := by
  cases kind <;> decide

/-- Fields are those of an element when they are those of its frame and its body. -/
theorem forall_mem_attributes_iff (e : Element Number) :
    (∀ a ∈ e.kind.attributes, fields a = e.get a) ↔
      (∀ a ∈ frameAttributes, fields a = e.frame.get a) ∧
        ∀ a ∈ e.kind.bodyAttributes, fields a = e.body.get a := by
  rw [Kind.attributes, List.forall_mem_append]
  refine and_congr (forall₂_congr fun a ha => ?_) (forall₂_congr fun a ha => ?_)
  · rw [Element.get_of_mem ha]
  · rw [Element.get_of_notMem (Kind.notMem_frameAttributes a ha)]

/-- A body and its frame are assembled one after the other. -/
theorem assemble_frame_body {β : Type} {body : Except Error β} {wrap : β → Body Number}
    {e : Element Number} :
    (do return ⟨← Frame.assemble fields, wrap (← body)⟩ : Except Error (Element Number)) = .ok e ↔
      ∃ b, e.body = wrap b ∧ body = .ok b ∧ Frame.assemble fields = .ok e.frame := by
  obtain ⟨frame, eBody⟩ := e
  simp only [bind_eq_ok, pure_eq_ok, Element.mk.injEq]
  constructor
  · rintro ⟨_, hframe, b, hbody, rfl, rfl⟩
    exact ⟨b, rfl, hbody, hframe⟩
  · rintro ⟨b, rfl, hbody, hframe⟩
    exact ⟨frame, hframe, b, hbody, rfl, rfl⟩

/-- An element that is no line is valid when its id is not empty. -/
theorem Element.isValid_iff {e : Element Number} (h : e.kind ≠ .line) :
    e.IsValid ↔ e.frame.id ≠ "" := by
  constructor
  · exact IsValid.id_ne_empty
  · refine fun hid => ⟨hid, fun line hline => ?_⟩
    exact absurd (by rw [kind, hline, Body.kind]) h

/-- Fields make an element of a kind other than the line when they are those of its
frame and those of its body. -/
theorem assemble_frame_body_eq_ok {β : Type} {body : Except Error β} {wrap : β → Body Number}
    {kind : Kind} {e : Element Number} (hline : kind ≠ .line)
    (hinputs : kind.inputs = kind.attributes) (hkind : ∀ b, (wrap b).kind = kind)
    (hwrap : ∀ b : Body Number, b.kind = kind → ∃ c, b = wrap c)
    (hbody : ∀ b, body = .ok b ↔ ∀ a ∈ kind.bodyAttributes, fields a = (wrap b).get a) :
    (do return ⟨← Frame.assemble fields, wrap (← body)⟩ : Except Error (Element Number)) = .ok e ↔
      e.kind = kind ∧ e.IsValid ∧ ∀ a ∈ kind.inputs, fields a = e.get a := by
  rw [assemble_frame_body, hinputs]
  constructor
  · rintro ⟨b, hb, hok, hframe⟩
    have he : e.kind = kind := by rw [Element.kind, hb, hkind]
    rw [Frame.assemble_eq_ok] at hframe
    refine ⟨he, (Element.isValid_iff (he ▸ hline)).mpr hframe.1, ?_⟩
    rw [← he, forall_mem_attributes_iff, he, hb]
    exact ⟨hframe.2, (hbody b).mp hok⟩
  · rintro ⟨he, hvalid, hfields⟩
    obtain ⟨b, hb⟩ := hwrap e.body he
    rw [← he, forall_mem_attributes_iff, he, hb] at hfields
    exact ⟨b, hb, (hbody b).mpr hfields.2,
      Frame.assemble_eq_ok.mpr ⟨hvalid.id_ne_empty, hfields.1⟩⟩

/-! ### Lifted arithmetic -/

theorem lift_eq_ok {β : Type} {x : Except Fault β} {b : β} :
    (liftM x : Except Error β) = .ok b ↔ x = .ok b := by
  cases x with
  | ok a =>
    show Except.ok a = Except.ok b ↔ _
    rw [Except.ok.injEq, Except.ok.injEq]
  | error f => exact ⟨fun h => (nomatch h), fun h => (nomatch h)⟩

/-- Arithmetic in steps can be lifted step by step. -/
theorem lift_bind {β γ : Type} (x : Except Fault β) (f : β → Except Fault γ) :
    (liftM (x >>= f) : Except Error γ) = liftM x >>= fun b => liftM (f b) := by
  cases x <;> rfl

theorem lift_map {β γ : Type} (x : Except Fault β) (f : β → γ) :
    (liftM (x.map f) : Except Error γ) = (liftM x : Except Error β).map f := by
  cases x <;> rfl

/-! ### Lines -/

theorem Fields.distance_eq_ok {a : Attribute} {x y d : Number} (h : fields a = .num x) :
    fields.distance a y = .ok d ↔ ∃ difference, Number.sub y x = .ok difference ∧
      difference.abs = d := by
  have hoperand : (Value.num x : Datum).operand = .ok x := rfl
  rw [Fields.distance, h]
  simp only [bind_eq_ok, lift_eq_ok, pure_eq_ok, hoperand, Except.ok.injEq, exists_eq_left']

/-- A frame spans the ends of a line when its extent is the distances between them. -/
theorem Frame.spanning_eq_ok {frame : Frame Number} {x2 y2 : Number} :
    frame.spanning x2 y2 = .ok frame ↔
      (∃ d, Number.sub x2 frame.x = .ok d ∧ d.abs = frame.width) ∧
        ∃ d, Number.sub y2 frame.y = .ok d ∧ d.abs = frame.height := by
  obtain ⟨id, x, y, width, height, rotation, locked, visible⟩ := frame
  simp only [Frame.spanning, Scalar.sub, Scalar.abs, bind_eq_ok, pure_eq_ok, Frame.mk.injEq]
  constructor
  · rintro ⟨dx, hdx, dy, hdy, -, -, -, hwidth, hheight, -⟩
    exact ⟨⟨dx, hdx, hwidth⟩, dy, hdy, hheight⟩
  · rintro ⟨⟨dx, hdx, hwidth⟩, dy, hdy, hheight⟩
    exact ⟨dx, hdx, dy, hdy, trivial, trivial, trivial, hwidth, hheight, trivial, trivial, trivial⟩

/-- A line is assembled from its ends, the frame that they span and the stroke. -/
theorem assembleLine_eq_ok {e : Element Number} :
    assembleLine fields = .ok e ↔
      e.kind = .line ∧ e.IsValid ∧ ∀ a ∈ Kind.line.inputs, fields a = e.get a := by
  constructor
  · intro h
    simp only [assembleLine, bind_eq_ok, Fields.number_eq_ok, Fields.text_eq_ok,
      Fields.choice_eq_ok, pure_eq_ok, Frame.assemble_eq_ok] at h
    obtain ⟨x2, hx2, y2, hy2, width, hwidth, height, hheight, frame, ⟨hid, hframe⟩, stroke,
      hstroke, strokeWidth, hstrokeWidth, strokeStyle, hstrokeStyle, rfl⟩ := h
    -- The extent that was put in is the frame's, so the distances are what it holds.
    have hx : fields .x = .num frame.x := hframe .x (by decide)
    have hy : fields .y = .num frame.y := hframe .y (by decide)
    have hw : (.num width : Datum) = .num frame.width := hframe .width (by decide)
    have hh : (.num height : Datum) = .num frame.height := hframe .height (by decide)
    rw [Fields.distance_eq_ok hx, Value.num.inj hw] at hwidth
    rw [Fields.distance_eq_ok hy, Value.num.inj hh] at hheight
    refine ⟨rfl, ⟨hid, ?_⟩, ?_⟩
    · rintro line hline
      cases hline
      exact Frame.spanning_eq_ok.mpr ⟨hwidth, hheight⟩
    · simp only [Kind.inputs, List.forall_mem_cons]
      exact ⟨hframe .id (by decide), hx, hy, hframe .rotation (by decide),
        hframe .locked (by decide), hframe .visible (by decide), hx2, hy2, hstroke, hstrokeWidth,
        hstrokeStyle, by simp⟩
  · obtain ⟨frame, body⟩ := e
    rintro ⟨hkind, hvalid, hfields⟩
    obtain ⟨line, rfl⟩ : ∃ line, body = .line line := by
      cases body with
      | line line => exact ⟨line, rfl⟩
      | _ => cases hkind
    simp only [Kind.inputs, List.forall_mem_cons] at hfields
    obtain ⟨hid, hx, hy, hrotation, hlocked, hvisible, hx2, hy2, hstroke, hstrokeWidth,
      hstrokeStyle, -⟩ := hfields
    -- The two extents are no inputs: that the line is valid says what they are.
    obtain ⟨hwidth, hheight⟩ := Frame.spanning_eq_ok.mp (hvalid.spans line rfl)
    simp only [assembleLine, bind_eq_ok, Fields.number_eq_ok, Fields.text_eq_ok,
      Fields.choice_eq_ok, pure_eq_ok, Frame.assemble_eq_ok]
    refine ⟨line.x2, hx2, line.y2, hy2, frame.width, (Fields.distance_eq_ok hx).mpr hwidth,
      frame.height, (Fields.distance_eq_ok hy).mpr hheight, frame, ⟨hvalid.id_ne_empty, ?_⟩,
      _, hstroke, _, hstrokeWidth, _, hstrokeStyle, rfl⟩
    simp only [frameAttributes, List.forall_mem_cons]
    exact ⟨hid, hx, hy, rfl, rfl, hrotation, hlocked, hvisible, by simp⟩

/-! ### All kinds -/

/-- Fields make an element exactly when the element is valid and the fields are its own. -/
theorem Element.assemble_eq_ok {kind : Kind} {e : Element Number} :
    Element.assemble kind fields = .ok e ↔
      e.kind = kind ∧ e.IsValid ∧ ∀ a ∈ kind.inputs, fields a = e.get a := by
  cases kind with
  | line => exact assembleLine_eq_ok
  | text =>
    refine assemble_frame_body_eq_ok (by decide) rfl (fun _ => rfl) ?_
      fun _ => TextBody.assemble_eq_ok
    intro b hb
    cases b with
    | text body => exact ⟨body, rfl⟩
    | _ => cases hb
  | barcode =>
    refine assemble_frame_body_eq_ok (by decide) rfl (fun _ => rfl) ?_
      fun _ => BarcodeBody.assemble_eq_ok
    intro b hb
    cases b with
    | barcode body => exact ⟨body, rfl⟩
    | _ => cases hb
  | qrcode =>
    refine assemble_frame_body_eq_ok (by decide) rfl (fun _ => rfl) ?_
      fun _ => QrBody.assemble_eq_ok
    intro b hb
    cases b with
    | qrcode body => exact ⟨body, rfl⟩
    | _ => cases hb
  | image =>
    refine assemble_frame_body_eq_ok (by decide) rfl (fun _ => rfl) ?_
      fun _ => ImageBody.assemble_eq_ok
    intro b hb
    cases b with
    | image body => exact ⟨body, rfl⟩
    | _ => cases hb
  | shape =>
    refine assemble_frame_body_eq_ok (by decide) rfl (fun _ => rfl) ?_
      fun _ => ShapeBody.assemble_eq_ok
    intro b hb
    cases b with
    | shape body => exact ⟨body, rfl⟩
    | _ => cases hb

theorem Kind.mem_attributes_of_mem_inputs {kind : Kind} {a : Attribute} (h : a ∈ kind.inputs) :
    a ∈ kind.attributes := by
  cases kind with
  | line =>
    revert a
    decide
  | _ => exact h

/-- A field is given, or is one of the extents of a line's frame. -/
theorem Kind.mem_inputs_or {kind : Kind} {a : Attribute} (h : a ∈ kind.attributes) :
    a ∈ kind.inputs ∨ kind = .line ∧ (a = .width ∨ a = .height) := by
  cases kind with
  | line =>
    revert a
    decide
  | _ => exact .inl h

/-- A valid element is assembled from its own fields. -/
theorem Element.assemble_get {e : Element Number} (h : e.IsValid) :
    Element.assemble e.kind e.get = .ok e :=
  assemble_eq_ok.mpr ⟨rfl, h, fun _ _ => rfl⟩

/-- Whatever is assembled is valid. -/
theorem Element.isValid_of_assemble {kind : Kind} {e : Element Number}
    (h : Element.assemble kind fields = .ok e) : e.IsValid :=
  (assemble_eq_ok.mp h).2.1

/-- An element is valid exactly when it passes the checks of its own kind unchanged. -/
theorem Element.isValid_iff_assemble {e : Element Number} :
    e.IsValid ↔ Element.assemble e.kind e.get = .ok e :=
  ⟨assemble_get, isValid_of_assemble⟩

end LabelLayout
