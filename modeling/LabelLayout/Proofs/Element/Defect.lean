import LabelLayout.Design.Record
import LabelLayout.Proofs.Binary64.Nearest
import LabelLayout.Proofs.Element.Assemble

/-!
# `LabelLayout.Proofs.Element.Defect`: what is no defect of an element's fields

Whatever is wrong with the fields of an element is a defect: a value of the wrong
kind, or one that is not admitted. There is one exception, and
`Element.assemble_eq_error` says exactly when it arises: an end of a line and its
origin have no difference, because one is a double and the other an integer too
large for one (`Number.Overflows`).
-/

set_option autoImplicit false

namespace LabelLayout

/-! ### Differences -/

/-- One number is a double, and the other an integer that is too large for one. -/
def Number.Overflows : Number → Number → Prop
  | .int n, .float _ => leastTooLarge ≤ n.natAbs
  | .float _, .int n => leastTooLarge ≤ n.natAbs
  | _, _ => False

/-- Two numbers have a difference unless they overflow. -/
theorem Number.sub_of_not_overflows {a b : Number} (h : ¬ a.Overflows b) :
    ∃ d, a.sub b = .ok d := by
  match a, b with
  | .int m, .int n => exact ⟨_, rfl⟩
  | .float x, .float y => exact ⟨_, rfl⟩
  | .int n, .float y =>
    obtain ⟨x, hx⟩ := Binary64.ofInt_of_lt (Nat.lt_of_not_le h)
    refine ⟨.float (x.sub y), ?_⟩
    simp only [sub, onFloats, toBinary64, hx, ok_bind]
    rfl
  | .float x, .int n =>
    obtain ⟨y, hy⟩ := Binary64.ofInt_of_lt (Nat.lt_of_not_le h)
    refine ⟨.float (x.sub y), ?_⟩
    simp only [sub, onFloats, toBinary64, hy, ok_bind]
    rfl

/-- Numbers that overflow have none. -/
theorem Number.sub_of_overflows {a b : Number} (h : a.Overflows b) :
    a.sub b = .error .tooLarge := by
  match a, b with
  | .int n, .float y =>
    simp only [sub, onFloats, toBinary64, Binary64.ofInt_of_le h, error_bind]
  | .float x, .int n =>
    simp only [sub, onFloats, toBinary64, Binary64.ofInt_of_le h, ok_bind, error_bind]

/-! ### Defects -/

/-- A computation that fails by a defect, if it fails. -/
def IsDefective {β : Type} (x : Except Error β) : Prop := ∀ e, x = .error e → e.isDefect = true

theorem IsDefective.bind {β γ : Type} {x : Except Error β} {f : β → Except Error γ}
    (hx : IsDefective x) (hf : ∀ b, IsDefective (f b)) : IsDefective (x >>= f) :=
  FailsWith.bind hx hf

/-- The error of a field that does not hold what it must. -/
def Error.IsFieldError : Error → Prop
  | .emptyId _ | .notNumber .. | .notText .. | .notChoice .. => True
  | _ => False

theorem Error.IsFieldError.isDefect {e : Error} (h : e.IsFieldError) : e.isDefect = true := by
  cases e <;> first | rfl | exact h.elim

/-- What fails over a field fails by a defect. -/
theorem FailsWith.isDefective {β : Type} {x : Except Error β}
    (h : FailsWith Error.IsFieldError x) : IsDefective x :=
  h.mono fun _ he => he.isDefect

theorem Check.failsWith_number (field : String) (v : Datum) :
    FailsWith Error.IsFieldError (Check.number field v) := by
  intro e h
  cases v <;> cases h <;> trivial

theorem Check.failsWith_text (field : String) (v : Datum) :
    FailsWith Error.IsFieldError (Check.text field v) := by
  intro e h
  cases v <;> cases h <;> trivial

theorem Check.failsWith_textOrNull (field : String) (v : Datum) :
    FailsWith Error.IsFieldError (Check.textOrNull field v) := by
  intro e h
  cases v <;> cases h <;> trivial

theorem Check.failsWith_choice (τ : Type) [Choice τ] (field : String) (v : Datum) :
    FailsWith Error.IsFieldError (Check.choice τ field v) := by
  intro e h
  rw [Check.choice.eq_def] at h
  split at h
  · simp only at h
    split at h
    · cases h
    · cases h
      trivial
  · cases h
    trivial

section

variable (fields : Fields) (a : Attribute)

theorem failsWith_number : FailsWith Error.IsFieldError (fields.number a) :=
  Check.failsWith_number _ _

theorem failsWith_text : FailsWith Error.IsFieldError (fields.text a) := Check.failsWith_text _ _

theorem failsWith_textOrNull : FailsWith Error.IsFieldError (fields.textOrNull a) :=
  Check.failsWith_textOrNull _ _

theorem failsWith_choice (τ : Type) [Choice τ] : FailsWith Error.IsFieldError (fields.choice τ a) :=
  Check.failsWith_choice _ _ _

theorem failsWith_id : FailsWith Error.IsFieldError fields.id := by
  intro e h
  rw [Fields.id] at h
  split at h
  · split at h
    · cases h
      trivial
    · cases h
  · cases h
    trivial

/-- Whatever is wrong with a frame is an error of a field. -/
theorem failsWith_frame : FailsWith Error.IsFieldError (Frame.assemble fields) :=
  (failsWith_id fields).bind fun _ => (failsWith_number fields _).bind fun _ =>
    (failsWith_number fields _).bind fun _ => (failsWith_number fields _).bind fun _ =>
    (failsWith_number fields _).bind fun _ => (failsWith_number fields _).bind fun _ =>
    failsWith_pure _

theorem failsWith_textBody : FailsWith Error.IsFieldError (TextBody.assemble fields) :=
  (failsWith_number fields _).bind fun _ => (failsWith_text fields _).bind fun _ =>
    (failsWith_text fields _).bind fun _ => (failsWith_text fields _).bind fun _ =>
    (failsWith_textOrNull fields _).bind fun _ => (failsWith_choice fields _ _).bind fun _ =>
    (failsWith_choice fields _ _).bind fun _ => failsWith_pure _

theorem failsWith_barcodeBody : FailsWith Error.IsFieldError (BarcodeBody.assemble fields) :=
  (failsWith_text fields _).bind fun _ => (failsWith_textOrNull fields _).bind fun _ =>
    (failsWith_choice fields _ _).bind fun _ => (failsWith_choice fields _ _).bind fun _ =>
    failsWith_pure _

theorem failsWith_qrBody : FailsWith Error.IsFieldError (QrBody.assemble fields) :=
  (failsWith_text fields _).bind fun _ => (failsWith_textOrNull fields _).bind fun _ =>
    (failsWith_choice fields _ _).bind fun _ => failsWith_pure _

theorem failsWith_imageBody : FailsWith Error.IsFieldError (ImageBody.assemble fields) :=
  (failsWith_text fields _).bind fun _ => (failsWith_choice fields _ _).bind fun _ =>
    failsWith_pure _

theorem failsWith_shapeBody : FailsWith Error.IsFieldError (ShapeBody.assemble fields) :=
  (failsWith_text fields _).bind fun _ => (failsWith_text fields _).bind fun _ =>
    (failsWith_choice fields _ _).bind fun _ => (failsWith_number fields _).bind fun _ =>
    (failsWith_number fields _).bind fun _ => failsWith_pure _

/-- So is whatever is wrong with the stroke of a line. -/
theorem failsWith_stroke {x2 y2 : Number} {frame : Frame Number} :
    FailsWith Error.IsFieldError (do
      let stroke ← fields.text .stroke
      let strokeWidth ← fields.number .strokeWidth
      let strokeStyle ← fields.choice StrokeStyle .strokeStyle
      return (⟨frame, .line { x2, y2, stroke, strokeWidth, strokeStyle }⟩ : Element Number)) :=
  (failsWith_text fields _).bind fun _ => (failsWith_number fields _).bind fun _ =>
    (failsWith_choice fields _ _).bind fun _ => failsWith_pure _

/-- So is whatever is wrong with an element that is no line. -/
theorem failsWith_assemble {kind : Kind} (h : kind ≠ .line) :
    FailsWith Error.IsFieldError (Element.assemble kind fields) := by
  cases kind with
  | line => exact absurd rfl h
  | text =>
    exact (failsWith_frame fields).bind fun _ =>
      (failsWith_textBody fields).bind fun _ => failsWith_pure _
  | barcode =>
    exact (failsWith_frame fields).bind fun _ =>
      (failsWith_barcodeBody fields).bind fun _ => failsWith_pure _
  | qrcode =>
    exact (failsWith_frame fields).bind fun _ =>
      (failsWith_qrBody fields).bind fun _ => failsWith_pure _
  | image =>
    exact (failsWith_frame fields).bind fun _ =>
      (failsWith_imageBody fields).bind fun _ => failsWith_pure _
  | shape =>
    exact (failsWith_frame fields).bind fun _ =>
      (failsWith_shapeBody fields).bind fun _ => failsWith_pure _

end

/-! ### Lines -/

/-- Where a fault is an error, any error is a fault. -/
theorem exists_fault_of_lift {β : Type} {x : Except Fault β} {e : Error}
    (h : (liftM x : Except Error β) = .error e) : ∃ f, e = .fault f := by
  cases x with
  | ok b => cases h
  | error f =>
    cases h
    exact ⟨f, rfl⟩

variable {fields : Fields}

/-- The distance from a field that brings a number. -/
theorem Fields.distance_of_operand {a : Attribute} {x : Number}
    (hx : (fields a).operand? = some x) (y : Number) :
    fields.distance a y = (do return (← (y.sub x)).abs) := by
  rw [Fields.distance, Value.operand, hx]
  rfl

/-- A distance fails without a defect exactly when its ends overflow. -/
theorem Fields.distance_eq_error {a : Attribute} {y : Number} {e : Error}
    (he : e.isDefect = false) :
    fields.distance a y = .error e ↔
      e = .fault .tooLarge ∧ ∃ x, (fields a).operand? = some x ∧ y.Overflows x := by
  cases hx : (fields a).operand? with
  | none =>
    -- What brings no number is a defect, though it is found by the arithmetic.
    have hfault : fields.distance a y = .error (.fault .operand) := by
      rw [Fields.distance, Value.operand, hx]
      rfl
    rw [hfault]
    constructor
    · intro h
      cases h
      cases he
    · rintro ⟨-, x, hx, -⟩
      cases hx
  | some x =>
    rw [distance_of_operand hx]
    by_cases hover : y.Overflows x
    · rw [Number.sub_of_overflows hover]
      constructor
      · intro h
        cases h
        exact ⟨rfl, x, rfl, hover⟩
      · rintro ⟨rfl, -⟩
        rfl
    · obtain ⟨d, hd⟩ := Number.sub_of_not_overflows hover
      rw [hd]
      constructor
      · intro h
        cases h
      · rintro ⟨-, z, hz, hzover⟩
        cases hz
        exact absurd hzover hover

/-- A distance is formed from a field that brings a number. -/
theorem Fields.operand_of_distance {a : Attribute} {y d : Number}
    (h : fields.distance a y = .ok d) : ∃ x, (fields a).operand? = some x := by
  cases hx : (fields a).operand? with
  | some x => exact ⟨x, rfl⟩
  | none =>
    rw [Fields.distance, Value.operand, hx] at h
    cases h

/-- The fields of a line whose ends are numbers and overflow along an axis, the origin
bringing numbers as far as it is looked at. -/
def Fields.LineOverflows (fields : Fields) : Prop :=
  ∃ x2 y2 x, fields .x2 = .num x2 ∧ fields .y2 = .num y2 ∧ (fields .x).operand? = some x ∧
    (x2.Overflows x ∨ ∃ y, (fields .y).operand? = some y ∧ y2.Overflows y)

theorem assembleLine_eq_error {e : Error} (he : e.isDefect = false) :
    assembleLine fields = .error e ↔ e = .fault .tooLarge ∧ fields.LineOverflows := by
  -- Every step but the two distances fails by a defect alone, and so not with `e`.
  have nondefect : ∀ {β : Type} {x : Except Error β}, IsDefective x → x ≠ .error e := by
    intro β x hx h
    rw [hx e h] at he
    cases he
  constructor
  · intro h
    rcases bind_eq_error.mp h with h | ⟨x2, hx2, h⟩
    · exact absurd h (nondefect (failsWith_number fields _).isDefective)
    rcases bind_eq_error.mp h with h | ⟨y2, hy2, h⟩
    · exact absurd h (nondefect (failsWith_number fields _).isDefective)
    rw [Fields.number_eq_ok] at hx2 hy2
    rcases bind_eq_error.mp h with h | ⟨width, hwidth, h⟩
    · obtain ⟨rfl, x, hx, hover⟩ := (Fields.distance_eq_error he).mp h
      exact ⟨rfl, x2, y2, x, hx2, hy2, hx, .inl hover⟩
    rcases bind_eq_error.mp h with h | ⟨height, -, h⟩
    · obtain ⟨rfl, y, hy, hover⟩ := (Fields.distance_eq_error he).mp h
      -- The height is looked at only where there is a width.
      obtain ⟨x, hx⟩ := Fields.operand_of_distance hwidth
      exact ⟨rfl, x2, y2, x, hx2, hy2, hx, .inr ⟨y, hy, hover⟩⟩
    rcases bind_eq_error.mp h with h | ⟨frame, -, h⟩
    · exact absurd h (nondefect (failsWith_frame _).isDefective)
    · exact absurd h (nondefect (failsWith_stroke fields).isDefective)
  · rintro ⟨rfl, x2, y2, x, hx2, hy2, hx, hover⟩
    rw [assembleLine, Fields.number_eq_ok.mpr hx2, ok_bind, Fields.number_eq_ok.mpr hy2, ok_bind]
    -- The width is formed first, so an overflow along x hides one along y.
    by_cases hxover : x2.Overflows x
    · rw [(Fields.distance_eq_error he).mpr ⟨rfl, x, hx, hxover⟩, error_bind]
    · obtain ⟨width, hwidth⟩ := Number.sub_of_not_overflows hxover
      obtain ⟨y, hy, hyover⟩ := hover.resolve_left hxover
      rw [Fields.distance_of_operand hx, hwidth,
        (Fields.distance_eq_error he).mpr ⟨rfl, y, hy, hyover⟩]
      rfl

/-- Fields are refused without a defect exactly when they are those of a line that
overflows. -/
theorem Element.assemble_eq_error {kind : Kind} {e : Error} (he : e.isDefect = false) :
    Element.assemble kind fields = .error e ↔
      kind = .line ∧ e = .fault .tooLarge ∧ fields.LineOverflows := by
  by_cases hline : kind = .line
  · subst hline
    rw [Element.assemble, assembleLine_eq_error he]
    simp
  · constructor
    · intro h
      rw [(failsWith_assemble fields hline).isDefective e h] at he
      cases he
    · rintro ⟨h, -⟩
      exact absurd h hline

/-- A distance that is not formed is a fault of arithmetic. -/
theorem Fields.failsWith_distance (a : Attribute) (y : Number) :
    FailsWith (fun e => ∃ f, e = .fault f) (fields.distance a y) := by
  intro e h
  rcases bind_eq_error.mp h with h | ⟨x, -, h⟩
  · exact exists_fault_of_lift h
  · rcases bind_eq_error.mp h with h | ⟨d, -, h⟩
    · exact exists_fault_of_lift h
    · cases h

/-- Whatever is wrong with the fields of an element is an error of a field or, along a line,
a fault of arithmetic. -/
theorem Element.failsWith_assemble (kind : Kind) :
    FailsWith (fun e => e.IsFieldError ∨ ∃ f, e = .fault f) (Element.assemble kind fields) := by
  by_cases hline : kind = .line
  · subst hline
    refine ((failsWith_number fields _).mono fun _ => .inl).bind fun _ => ?_
    refine ((failsWith_number fields _).mono fun _ => .inl).bind fun _ => ?_
    refine ((Fields.failsWith_distance _ _).mono fun _ => .inr).bind fun _ => ?_
    refine ((Fields.failsWith_distance _ _).mono fun _ => .inr).bind fun _ => ?_
    refine ((failsWith_frame _).mono fun _ => .inl).bind fun _ => ?_
    exact (failsWith_stroke fields).mono fun _ => .inl
  · exact (LabelLayout.failsWith_assemble fields hline).mono fun _ => .inl

end LabelLayout
