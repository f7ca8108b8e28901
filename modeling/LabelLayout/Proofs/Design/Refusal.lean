import LabelLayout.Design.File
import LabelLayout.Proofs.Design.Record
import LabelLayout.Proofs.Element.Defect

/-!
# `LabelLayout.Proofs.Design.Refusal`: which texts make loading fail

Loading gives a document, or nothing for a text that is no design. In three cases it
does neither but fails, and `Document.imported_eq_error_iff` says exactly when:

* the text is nested deeper than the reader goes,
* the type of an entry is a list or an object,
* the entry of a line has ends that overflow (`Fields.LineOverflows`).

An entry does so only if the size before the entries and all entries before it are
read (`Document.Escapes`).
-/

set_option autoImplicit false

namespace LabelLayout

/-- Where defects are wrapped in errors of the format family, what is not of it is no
defect and comes through. -/
theorem Error.within_eq_error {β : Type} {wrap : Error → Error} {x : Except Error β} {e : Error}
    (hwrap : ∀ cause, (wrap cause).family = .format) (he : e.family ≠ .format) :
    Error.within wrap x = .error e ↔ x = .error e ∧ e.isDefect = false := by
  cases x with
  | ok b => simp [within]
  | error cause =>
    simp only [within, Except.error.injEq]
    cases hdefect : cause.isDefect with
    | true =>
      rw [if_pos rfl]
      constructor
      · rintro rfl
        exact absurd (hwrap cause) he
      · rintro ⟨rfl, h⟩
        rw [hdefect] at h
        cases h
    | false =>
      rw [if_neg (by decide)]
      constructor
      · rintro rfl
        exact ⟨rfl, hdefect⟩
      · exact And.left

/-- A part that fails by a defect alone fails with an error of the format family. -/
theorem Error.family_of_within {β : Type} {wrap : Error → Error} {x : Except Error β}
    {e : Error} (hwrap : ∀ cause, (wrap cause).family = .format) (hx : IsDefective x)
    (h : Error.within wrap x = .error e) : e.family = .format := by
  -- Otherwise it would have come through unwrapped, and only what is no defect does.
  refine Decidable.byContradiction fun he => ?_
  obtain ⟨hxe, hdefect⟩ := (within_eq_error hwrap he).mp h
  rw [hx e hxe] at hdefect
  cases hdefect

/-! ### Entries -/

/-- An entry that is neither read as an element nor refused as a defective one. -/
def Element.Escapes (entry : Datum) (e : Error) : Prop :=
  ∃ members : Members, entry = .object members ∧
    (((members.lookup "type").getD .null).isKey = false ∧ e = .notAKey ∨
      members.lookup "type" = some (.str "line") ∧ members.has "id" = true ∧
        (Fields.ofRecord .line members).LineOverflows ∧ e = .fault .tooLarge)

/-- A type that is a list or an object cannot be looked up. -/
theorem Element.ofRecord_of_not_isKey {members : Members}
    (h : ((members.lookup "type").getD .null).isKey = false) :
    ofRecord (.object members) = .error .notAKey := by
  have hkind : Kind.ofDatum? ((members.lookup "type").getD .null) = .error .notAKey := by
    cases htype : (members.lookup "type").getD .null with
    | list _ | object _ => rfl
    | _ =>
      rw [htype] at h
      cases h
  simp only [ofRecord, hkind, error_bind]

/-- Any other type names a kind, or is refused. -/
theorem Element.family_of_unknown {members : Members} {e : Error}
    (htype : Kind.ofDatum? ((members.lookup "type").getD .null) = .ok none)
    (h : ofRecord (.object members) = .error e) : e.family = .format := by
  simp only [ofRecord, htype, ok_bind] at h
  cases h
  rfl

/-- An entry without an id is refused. -/
theorem Element.family_of_no_id {members : Members} {kind : Kind} {e : Error}
    (htype : Kind.ofDatum? ((members.lookup "type").getD .null) = .ok (some kind))
    (hid : members.has "id" = false) (h : ofRecord (.object members) = .error e) :
    e.family = .format := by
  simp only [ofRecord, htype, ok_bind, hid] at h
  cases h
  rfl

/-- An entry fails with an error outside the format family exactly when it escapes. -/
theorem Element.ofRecord_eq_error_iff {entry : Datum} {e : Error} (he : e.family ≠ .format) :
    ofRecord entry = .error e ↔ Escapes entry e := by
  constructor
  · intro h
    cases entry with
    | object members =>
      refine ⟨members, rfl, ?_⟩
      -- The steps of the reader in order: the type, its kind, the id, the fields.
      cases hkey : ((members.lookup "type").getD .null).isKey with
      | false =>
        rw [ofRecord_of_not_isKey hkey] at h
        cases h
        exact .inl ⟨rfl, rfl⟩
      | true =>
        have hkind : ∃ kind?, Kind.ofDatum? ((members.lookup "type").getD .null) = .ok kind? := by
          cases htype : (members.lookup "type").getD .null with
          | list _ | object _ =>
            rw [htype] at hkey
            cases hkey
          | _ => exact ⟨_, rfl⟩
        obtain ⟨kind?, hkind⟩ := hkind
        cases kind? with
        | none => exact absurd (family_of_unknown hkind h) he
        | some kind =>
          cases hid : Members.has members "id" with
          | false => exact absurd (family_of_no_id hkind hid h) he
          | true =>
            rw [ofRecord_object hkind hid, Error.within_eq_error (fun _ => rfl) he] at h
            obtain ⟨rfl, rfl, hover⟩ := (assemble_eq_error h.2).mp h.1
            exact .inr ⟨Kind.ofDatum?_eq_some.mp hkind, rfl, hover, rfl⟩
    | _ =>
      cases h
      exact absurd rfl he
  · rintro ⟨members, rfl, ⟨hkey, rfl⟩ | ⟨htype, hid, hover, rfl⟩⟩
    · exact ofRecord_of_not_isKey hkey
    · have hkind : Kind.ofDatum? ((members.lookup "type").getD .null) = .ok (some .line) :=
        Kind.ofDatum?_eq_some.mpr htype
      rw [ofRecord_object hkind hid, Error.within_eq_error (fun _ => rfl) he]
      exact ⟨(assemble_eq_error rfl).mpr ⟨rfl, rfl, hover⟩, rfl⟩

/-! ### Sizes and settings -/

theorem LabelSize.isDefective_check (name width height category : Datum) :
    IsDefective (check name width height category) :=
  (Check.failsWith_number _ _).isDefective.bind fun _ =>
    (Check.failsWith_number _ _).isDefective.bind fun _ =>
    FailsWith.guard rfl ((Check.failsWith_choice _ _ _).isDefective.bind fun _ => failsWith_pure _)

theorem Settings.isDefective_check (gridSize showGrid showRulers units : Datum) :
    IsDefective (check gridSize showGrid showRulers units) :=
  (Check.failsWith_number _ _).isDefective.bind fun _ =>
    FailsWith.guard rfl ((Check.failsWith_choice _ _ _).isDefective.bind fun _ => failsWith_pure _)

/-- A size that is not read is refused. -/
theorem LabelSize.family_of_ofRecord {v : Datum} {e : Error} (h : ofRecord v = .error e) :
    e.family = .format := by
  have required : ∀ {members : Members} {key : String} {e : Error},
      requiredKey members key = .error e → e.family = .format := by
    intro members key e h
    rw [requiredKey] at h
    split at h
    · cases h
    · cases h
      rfl
  cases v with
  | object members =>
    simp only [ofRecord] at h
    rcases bind_eq_error.mp h with h | ⟨width, -, h⟩
    · exact required h
    rcases bind_eq_error.mp h with h | ⟨height, -, h⟩
    · exact required h
    exact Error.family_of_within (fun _ => rfl) (isDefective_check _ _ _ _) h
  | _ =>
    cases h
    rfl

/-- Settings that are not read are refused. -/
theorem Settings.family_of_ofRecord {v : Datum} {e : Error} (h : ofRecord v = .error e) :
    e.family = .format := by
  cases v with
  | null => cases h
  | object members => exact Error.family_of_within (fun _ => rfl) (isDefective_check _ _ _ _) h
  | _ =>
    cases h
    rfl

/-! ### Documents -/

/-- A record of which an entry escapes, with a size that is read and elements in front of
the entry that are. -/
def Document.Escapes (v : Datum) (e : Error) : Prop :=
  ∃ (members : Members) (before : List Datum) (entry : Datum) (after : List Datum),
    v = .object members ∧
    (∃ size, LabelSize.ofRecord ((members.lookup "size").getD .null) = .ok size) ∧
    members.lookup "elements" = some (.list (before ++ entry :: after)) ∧
    (∀ other ∈ before, ∃ element, Element.ofRecord other = .ok element) ∧
    Element.Escapes entry e

theorem Document.isDefective_make (size : LabelSize Number) (elements : List (Element Number))
    (settings : Settings Number) : IsDefective (make size elements settings) := by
  intro e h
  rw [make] at h
  split at h
  · cases h
    rfl
  · cases h

/-- A size that is read is not off. -/
theorem LabelSize.truthy_of_ofRecord {v : Datum} {size : LabelSize Number}
    (h : ofRecord v = .ok size) : v.truthy = true := by
  obtain ⟨-, members, rfl, -, hwidth, -⟩ := ofRecord_eq_ok h
  cases members with
  | nil => cases hwidth
  | cons m members => rfl

/-- A record fails with an error outside the format family exactly when it escapes. -/
theorem Document.ofRecord_eq_error_iff {v : Datum} {e : Error} (he : e.family ≠ .format) :
    ofRecord v = .error e ↔ Escapes v e := by
  constructor
  · intro h
    cases v with
    | object members =>
      simp only [ofRecord] at h
      cases htruthy : ((members.lookup "size").getD .null).truthy with
      | false =>
        rw [htruthy] at h
        cases h
        exact absurd rfl he
      | true =>
        rw [htruthy] at h
        cases hentries : members.lookup "elements" with
        | none =>
          rw [hentries] at h
          cases h
          exact absurd rfl he
        | some w =>
          rw [hentries] at h
          cases w with
          | list entries =>
            -- Of the four parts only the elements can fail with such an error.
            rcases bind_eq_error.mp h with h | ⟨size, hsize, h⟩
            · exact absurd (LabelSize.family_of_ofRecord h) he
            rcases bind_eq_error.mp h with h | ⟨elements, -, h⟩
            · obtain ⟨before, entry, after, rfl, hbefore, hentry⟩ := mapM_eq_error.mp h
              exact ⟨members, before, entry, after, rfl, ⟨size, hsize⟩, hentries, hbefore,
                (Element.ofRecord_eq_error_iff he).mp hentry⟩
            rcases bind_eq_error.mp h with h | ⟨settings, -, h⟩
            · exact absurd (Settings.family_of_ofRecord h) he
            · exact absurd
                (Error.family_of_within (fun _ => rfl) (isDefective_make _ _ _) h) he
          | _ =>
            cases h
            exact absurd rfl he
    | _ =>
      cases h
      exact absurd rfl he
  · rintro ⟨members, before, entry, after, rfl, ⟨size, hsize⟩, hentries, hbefore, hescapes⟩
    have helements := mapM_eq_error.mpr ⟨before, entry, after, rfl, hbefore,
      (Element.ofRecord_eq_error_iff he).mpr hescapes⟩
    -- The size is looked at twice: whether it is there, and what it says.
    have htruthy := LabelSize.truthy_of_ofRecord hsize
    simp only [ofRecord, hentries, Option.getD_some, htruthy, hsize, ok_bind, helements]
    rfl

/-- The error of an entry that escapes is not of the format family. -/
theorem Element.Escapes.family_ne {entry : Datum} {e : Error} (h : Escapes entry e) :
    e.family ≠ .format := by
  obtain ⟨members, -, ⟨-, rfl⟩ | ⟨-, -, -, rfl⟩⟩ := h <;> decide

/-- Loading a text fails exactly when the text is nested too deep or has an entry that
escapes. -/
theorem Document.imported_eq_error_iff {text : String} {e : Error} :
    imported text = .error e ↔
      Json.read text = .error .tooDeep ∧ e = .tooDeep ∨
        ∃ v, Json.read text = .ok v ∧ Escapes v e := by
  rw [imported]
  cases hread : Json.read text with
  | error failure =>
    cases failure with
    | malformed => simp [accept]
    | tooDeep => simp [accept, eq_comm]
  | ok v =>
    simp only [reduceCtorEq, false_and, false_or, Except.ok.injEq, exists_eq_left']
    constructor
    · intro h
      cases hrecord : ofRecord v with
      | ok d =>
        simp only [accept, hrecord] at h
        cases h
      | error cause =>
        simp only [accept, hrecord] at h
        split at h
        -- An error of the format family is a refusal, and gives nothing instead.
        · cases h
        · next hfamily =>
          cases h
          exact (ofRecord_eq_error_iff hfamily).mp hrecord
    · intro h
      obtain ⟨members, before, entry, after, -, -, -, -, hescapes⟩ := id h
      have hfamily := hescapes.family_ne
      simp only [accept, (ofRecord_eq_error_iff hfamily).mpr h, if_neg hfamily]

/-- A design file in which the type of an entry is a list. -/
def Document.textWithListType : String :=
  "\x7b\"size\": \x7b\"width\": 2, \"height\": 1\x7d, " ++
    "\"elements\": [\x7b\"type\": [], \"id\": \"a\"\x7d]\x7d"

/-- Loading that file fails, because its entry escapes. -/
theorem Document.imported_textWithListType :
    imported textWithListType = .error .notAKey ∧
      ∃ v, Json.read textWithListType = .ok v ∧ Escapes v .notAKey := by
  have himported : imported textWithListType = .error .notAKey := by decide +kernel
  rcases imported_eq_error_iff.mp himported with ⟨-, hdeep⟩ | hescapes
  · cases hdeep
  · exact ⟨himported, hescapes⟩

end LabelLayout
