import LabelLayout.Proofs.Document.Valid

/-!
# `LabelLayout.Proofs.Design.Record`: documents survive their records

A record leaves null fields out, and reading fills in what is left out with the
default of the kind. So what is read back from the record of a valid document is not
always that document: `Document.filled` is the document with the default of every
flag that is null in its place, and `Document.ofRecord_record` says that reading
gives exactly this. The other fields that may be null have null for their default.

`Document.isValid_of_ofRecord` is the other direction: what is read is valid.
-/

set_option autoImplicit false

namespace LabelLayout

/-! ### Null flags -/

/-- A value, or another in the place of null. -/
def Value.orElse (v other : Datum) : Datum := if v = .null then other else v

@[simp]
theorem Value.orElse_null (v : Datum) : v.orElse .null = v := by
  rw [orElse]
  split
  · next h => exact h.symm
  · rfl

theorem Value.orElse_of_ne {v : Datum} (h : v ≠ .null) (other : Datum) : v.orElse other = v :=
  if_neg h

/-- A frame with the defaults of the flags that are null. -/
def Frame.filled (frame : Frame Number) : Frame Number :=
  { frame with
    locked := frame.locked.orElse (.bool false)
    visible := frame.visible.orElse (.bool true) }

/-- A body with the defaults of the flags that are null. -/
def Body.filled : Body Number → Body Number
  | .text t => .text { t with isVariable := t.isVariable.orElse (.bool false) }
  | .barcode b => .barcode { b with
      showText := b.showText.orElse (.bool true)
      isVariable := b.isVariable.orElse (.bool false) }
  | .qrcode q => .qrcode { q with isVariable := q.isVariable.orElse (.bool false) }
  | body => body

/-- An element with the defaults of the flags that are null. -/
def Element.filled (e : Element Number) : Element Number := ⟨e.frame.filled, e.body.filled⟩

/-- A document with the defaults of the flags that are null. -/
def Document.filled (d : Document Number) : Document Number :=
  { d with elements := d.elements.map Element.filled }

@[simp]
theorem Element.kind_filled (e : Element Number) : e.filled.kind = e.kind := by
  obtain ⟨frame, body⟩ := e
  cases body <;> rfl

/-- Filling in flags keeps an element valid. -/
theorem Element.IsValid.filled {e : Element Number} (h : e.IsValid) : e.filled.IsValid := by
  refine ⟨h.id_ne_empty, fun line hline => ?_⟩
  have hbody : e.body = .line line := by
    obtain ⟨frame, body⟩ := e
    cases body <;> first | exact hline | cases hline
  -- The flags of a frame have no part in what it spans.
  have hspans := Frame.spanning_eq_ok.mp (h.spans line hbody)
  exact Frame.spanning_eq_ok.mpr hspans

@[simp]
theorem Value.orElse_num (x : Number) (other : Datum) :
    (Value.num x : Datum).orElse other = .num x := orElse_of_ne (by simp) other

@[simp]
theorem Value.orElse_str (text : String) (other : Datum) :
    (Value.str text : Datum).orElse other = .str text := orElse_of_ne (by simp) other

@[simp]
theorem Choice.datum_orElse {τ : Type} [Choice τ] (choice : τ) (other : Datum) :
    (Choice.datum choice : Datum).orElse other = Choice.datum choice := Value.orElse_str _ other

/-- A field of a filled frame is the default of its kind where it was null. -/
theorem Frame.get_filled (frame : Frame Number) (kind : Kind) :
    ∀ a ∈ frameAttributes, frame.filled.get a = (frame.get a).orElse (kind.default a) := by
  simp only [frameAttributes, List.forall_mem_cons, Frame.get, Frame.filled, Kind.default,
    Value.orElse_num, Value.orElse_str, true_and]
  exact List.forall_mem_nil _

/-- A field of a filled body is the default of its kind where it was null. -/
theorem Body.get_filled (body : Body Number) :
    ∀ a ∈ body.kind.bodyAttributes,
      body.filled.get a = (body.get a).orElse (body.kind.default a) := by
  cases body <;>
    simp only [Body.kind, Kind.bodyAttributes, List.forall_mem_cons, Body.filled, Body.get,
      TextBody.get, BarcodeBody.get, QrBody.get, ImageBody.get, ShapeBody.get, LineBody.get,
      Kind.default, Value.orElse_num, Value.orElse_str, Choice.datum_orElse, Value.orElse_null,
      true_and] <;>
    exact List.forall_mem_nil _

/-- A field of a filled element is the default of its kind where it was null. -/
theorem Element.get_filled (e : Element Number) :
    ∀ a ∈ e.kind.attributes, e.filled.get a = (e.get a).orElse (e.kind.default a) := by
  rw [Kind.attributes, List.forall_mem_append]
  refine ⟨fun a ha => ?_, fun a ha => ?_⟩
  · rw [get_of_mem ha, get_of_mem ha]
    exact Frame.get_filled e.frame e.kind a ha
  · have hframe := Kind.notMem_frameAttributes a ha
    rw [get_of_notMem hframe, get_of_notMem hframe]
    exact Body.get_filled e.body a ha

/-! ### Elements -/

/-- Every field of design files, for the proof that their keys differ. -/
def Attribute.all : List Attribute :=
  [.id, .x, .y, .width, .height, .rotation, .locked, .visible, .content, .fontSize, .fontFamily,
    .fontWeight, .color, .align, .lineHeight, .letterSpacing, .isVariable, .dataField, .value,
    .symbology, .showText, .textPosition, .errorCorrectionLevel, .src, .objectFit, .shapeType,
    .fill, .stroke, .strokeWidth, .cornerRadius, .x2, .y2, .strokeStyle]

theorem Attribute.mem_all (a : Attribute) : a ∈ all := by cases a <;> decide

/-- Different fields have different keys. -/
theorem Attribute.key_injective {a b : Attribute} (h : a.key = b.key) : a = b := by
  have hall : ∀ a ∈ all, ∀ b ∈ all, a.key = b.key → a = b := by decide +kernel
  exact hall a (mem_all a) b (mem_all b) h

theorem Attribute.key_ne_type (a : Attribute) : a.key ≠ "type" := by
  cases a <;> decide +kernel

section

variable {f : Attribute → Datum} {a : Attribute}

/-- A null field is not among the members of a record. -/
theorem lookup_filter_of_null (h : f a = .null) (attributes : List Attribute) :
    ((attributes.map fun b => (b.key, f b)).filter fun (_, v) => v ≠ .null).lookup a.key
      = none := by
  induction attributes with
  | nil => rfl
  | cons b rest ih =>
    rw [List.map_cons]
    by_cases hnull : f b = .null
    · rw [List.filter_cons_of_neg (by simp [hnull])]
      exact ih
    -- What is not null is another field, and so has another key.
    · have hkey : (a.key == b.key) = false := by
        refine beq_false_of_ne fun hab => hnull ?_
        rw [← Attribute.key_injective hab, h]
      rw [List.filter_cons_of_pos (by simp [hnull]), List.lookup_cons, hkey]
      exact ih

/-- Any other field is found under its key. -/
theorem lookup_filter_of_ne (h : f a ≠ .null) {attributes : List Attribute}
    (ha : a ∈ attributes) :
    ((attributes.map fun b => (b.key, f b)).filter fun (_, v) => v ≠ .null).lookup a.key
      = some (f a) := by
  induction attributes with
  | nil => exact absurd ha List.not_mem_nil
  | cons b rest ih =>
    rw [List.map_cons]
    by_cases hab : a = b
    · subst hab
      rw [List.filter_cons_of_pos (by simp [h]), List.lookup_cons_self]
    · have hrest : a ∈ rest := (List.mem_cons.mp ha).resolve_left hab
      have hkey : (a.key == b.key) = false :=
        beq_false_of_ne fun h => hab (Attribute.key_injective h)
      by_cases hnull : f b = .null
      · rw [List.filter_cons_of_neg (by simp [hnull])]
        exact ih hrest
      · rw [List.filter_cons_of_pos (by simp [hnull]), List.lookup_cons, hkey]
        exact ih hrest

end

theorem Element.lookup_record_of_null {e : Element Number} {a : Attribute}
    (h : e.get a = .null) : e.record.lookup a.key = none := by
  have hkey : (a.key == "type") = false := beq_false_of_ne a.key_ne_type
  rw [record, List.lookup_cons, hkey]
  exact lookup_filter_of_null h _

theorem Element.lookup_record_of_ne {e : Element Number} {a : Attribute} (h : e.get a ≠ .null)
    (ha : a ∈ e.kind.attributes) : e.record.lookup a.key = some (e.get a) := by
  have hkey : (a.key == "type") = false := beq_false_of_ne a.key_ne_type
  rw [record, List.lookup_cons, hkey]
  exact lookup_filter_of_ne h ha

/-- A field is read back from the record, null fields as the defaults of the kind. -/
theorem Element.ofRecord_fields (e : Element Number) {a : Attribute}
    (ha : a ∈ e.kind.attributes) :
    Fields.ofRecord e.kind e.record a = (e.get a).orElse (e.kind.default a) := by
  rw [Fields.ofRecord]
  by_cases hnull : e.get a = .null
  · rw [lookup_record_of_null hnull, hnull]
    rfl
  · rw [lookup_record_of_ne hnull ha, Value.orElse_of_ne hnull]
    rfl

/-- The kind of an entry is the one that its type names. -/
theorem Kind.ofDatum?_eq_some {members : Members} {kind : Kind} :
    Kind.ofDatum? ((members.lookup "type").getD .null) = .ok (some kind) ↔
      members.lookup "type" = some (Choice.datum kind) := by
  cases htype : members.lookup "type" with
  | none => simp [ofDatum?, Value.isKey, Choice.datum]
  | some v =>
    cases v with
    | str name =>
      simp only [Option.getD_some, ofDatum?, Except.ok.injEq, Option.some.injEq, Choice.datum,
        Value.str.injEq]
      constructor
      · intro h
        exact (Choice.name_of_ofName? h).symm
      · rintro rfl
        exact Choice.ofName?_name kind
    | _ => simp [ofDatum?, Value.isKey, Choice.datum]

/-- An entry with the type of a kind and an id is read by assembling its fields. -/
theorem Element.ofRecord_object {members : Members} {kind : Kind}
    (htype : Kind.ofDatum? ((members.lookup "type").getD .null) = .ok (some kind))
    (hid : members.has "id" = true) :
    Element.ofRecord (.object members)
      = Error.within (.entryInvalid kind (Fields.ofRecord kind members .id))
          (Element.assemble kind (Fields.ofRecord kind members)) := by
  simp only [ofRecord, htype, hid, ok_bind]
  rfl

/-- The record of a valid element is read as the element with its null flags filled in. -/
theorem Element.ofRecord_record {e : Element Number} (h : e.IsValid) :
    Element.ofRecord (.object e.record) = .ok e.filled := by
  have htype : Kind.ofDatum? ((e.record.lookup "type").getD .null) = .ok (some e.kind) := by
    rw [record, List.lookup_cons_self]
    exact congrArg Except.ok (Choice.ofName?_name e.kind)
  have hid : e.record.has "id" = true := by
    have hget : e.get .id ≠ .null := by simp [Element.get, frameAttributes, Frame.get]
    exact congrArg Option.isSome
      (lookup_record_of_ne hget (List.mem_append_left _ (by decide)))
  -- The extent of a line is written too, but what is read of it is passed over.
  have hassemble : Element.assemble e.kind (Fields.ofRecord e.kind e.record) = .ok e.filled := by
    refine assemble_eq_ok.mpr ⟨e.kind_filled, h.filled, fun a ha => ?_⟩
    have hmem := Kind.mem_attributes_of_mem_inputs ha
    rw [e.ofRecord_fields hmem, e.get_filled a hmem]
  rw [ofRecord_object htype hid, hassemble]
  rfl

/-! ### Documents -/

/-- The record of a size is read as the size, if its name is a text. -/
theorem LabelSize.ofRecord_record {size : LabelSize Number} (h : size.IsValid) {name : String}
    (hname : size.name = .str name) :
    LabelSize.ofRecord (.object size.record) = .ok size := by
  have hcheck : check (.str name) (.num size.width) (.num size.height)
      (Choice.datum size.category) = .ok size :=
    check_eq_ok.mpr ⟨h, hname.symm, rfl, rfl, rfl⟩
  have hread : LabelSize.ofRecord (.object size.record) = Error.within .sizeInvalid
      (check (.str (Value.display size.name)) (.num size.width) (.num size.height)
        (Choice.datum size.category)) := rfl
  rw [hread, hname, Value.display, hcheck]
  rfl

/-- The record of settings is read as the settings. -/
theorem Settings.ofRecord_record {settings : Settings Number} (h : settings.IsValid) :
    Settings.ofRecord (.object settings.record) = .ok settings := by
  have hread : Settings.ofRecord (.object settings.record) = Error.within .settingsInvalid
      (check (.num settings.gridSize) settings.showGrid settings.showRulers
        (Choice.datum settings.units)) := rfl
  rw [hread, check_eq_ok.mpr ⟨h, rfl, rfl, rfl, rfl⟩]
  rfl

/-- The record of a valid document is read as the document with its null flags filled in. -/
theorem Document.ofRecord_record {d : Document Number} (h : d.IsValid) {name : String}
    (hname : d.size.name = .str name) : Document.ofRecord d.record = .ok d.filled := by
  have helements : (d.elements.map fun e => (.object e.record : Datum)).mapM Element.ofRecord
      = .ok (d.elements.map Element.filled) := by
    rw [List.mapM_map]
    exact mapM_ok fun e he => Element.ofRecord_record (h.elements e he)
  have hids : ((d.elements.map Element.filled).map Element.id).Nodup := by
    rw [List.map_map]
    exact h.ids
  -- Filling in keeps the ids, so they are as different as they were.
  have hmake : make d.size (d.elements.map Element.filled) d.settings = .ok d.filled :=
    make_eq_ok.mpr ⟨hids, rfl⟩
  have hread : Document.ofRecord d.record = (do
      let size ← LabelSize.ofRecord (.object d.size.record)
      let elements ← (d.elements.map fun e => (.object e.record : Datum)).mapM Element.ofRecord
      let settings ← Settings.ofRecord (.object d.settings.record)
      Error.within .designInvalid (make size elements settings)) := rfl
  rw [hread, LabelSize.ofRecord_record h.size hname, helements,
    Settings.ofRecord_record h.settings, ok_bind, ok_bind, ok_bind, hmake]
  rfl

/-! ### What is read -/

theorem Error.within_eq_ok {β : Type} {wrap : Error → Error} {x : Except Error β} {b : β} :
    Error.within wrap x = .ok b ↔ x = .ok b := by
  cases x with
  | ok a => exact Iff.rfl
  | error e => exact ⟨fun h => (nomatch h), fun h => (nomatch h)⟩

/-- An element is read from an object that names its kind and has an id, and is
assembled from its members. -/
theorem Element.ofRecord_eq_ok {v : Datum} {e : Element Number} (h : ofRecord v = .ok e) :
    ∃ members, v = .object members ∧
      Element.assemble e.kind (Fields.ofRecord e.kind members) = .ok e := by
  cases v with
  | object members =>
    simp only [ofRecord, bind_eq_ok] at h
    obtain ⟨kind?, -, h⟩ := h
    cases kind? with
    | none => cases h
    | some kind =>
      simp only [guard_eq_ok, Error.within_eq_ok] at h
      have hkind := (assemble_eq_ok.mp h.2).1
      exact ⟨members, rfl, by rw [hkind]; exact h.2⟩
  | _ => cases h

theorem Element.isValid_of_ofRecord {v : Datum} {e : Element Number} (h : ofRecord v = .ok e) :
    e.IsValid := by
  obtain ⟨members, -, hassemble⟩ := ofRecord_eq_ok h
  exact isValid_of_assemble hassemble

theorem LabelSize.requiredKey_eq_ok {members : Members} {key : String} {v : Datum} :
    requiredKey members key = .ok v ↔ members.lookup key = some v := by
  rw [requiredKey]
  cases members.lookup key <;> simp

/-- A size is read from an object, and its name is a text. -/
theorem LabelSize.ofRecord_eq_ok {v : Datum} {size : LabelSize Number}
    (h : ofRecord v = .ok size) : size.IsValid ∧ ∃ members, v = .object members ∧
      size.name = .str ((members.lookup "name").getD (.str "Custom")).display ∧
      members.lookup "width" = some (.num size.width) ∧
      members.lookup "height" = some (.num size.height) := by
  cases v with
  | object members =>
    simp only [ofRecord, bind_eq_ok, requiredKey_eq_ok, Error.within_eq_ok, check_eq_ok] at h
    obtain ⟨width, hwidth, height, hheight, hvalid, hname, rfl, rfl, -⟩ := h
    exact ⟨hvalid, members, rfl, hname.symm, hwidth, hheight⟩
  | _ => cases h

/-- Settings are the initial ones, or are read from an object. -/
theorem Settings.ofRecord_eq_ok {v : Datum} {settings : Settings Number}
    (h : ofRecord v = .ok settings) : settings.IsValid ∧ (settings = initial ∨
      ∃ members, v = .object members ∧
        (members.lookup "gridSize").getD (.num initial.gridSize) = .num settings.gridSize ∧
        (members.lookup "showGrid").getD initial.showGrid = settings.showGrid ∧
        (members.lookup "showRulers").getD initial.showRulers = settings.showRulers) := by
  cases v with
  | null =>
    cases h
    exact ⟨Document.isValid_initial.settings, .inl rfl⟩
  | object members =>
    simp only [ofRecord, Error.within_eq_ok, check_eq_ok] at h
    obtain ⟨hvalid, hgrid, hshow, hrulers, -⟩ := h
    exact ⟨hvalid, .inr ⟨members, rfl, hgrid, hshow, hrulers⟩⟩
  | _ => cases h

/-- A document is read from an object with a size, a list of elements and settings. -/
theorem Document.ofRecord_eq_ok {v : Datum} {d : Document Number} (h : ofRecord v = .ok d) :
    ∃ members entries, v = .object members ∧ members.lookup "elements" = some (.list entries) ∧
      LabelSize.ofRecord ((members.lookup "size").getD .null) = .ok d.size ∧
      entries.mapM Element.ofRecord = .ok d.elements ∧
      Settings.ofRecord ((members.lookup "settings").getD .null) = .ok d.settings ∧
      d.ids.Nodup := by
  cases v with
  | object members =>
    simp only [ofRecord, guard_eq_ok] at h
    obtain ⟨-, h⟩ := h
    cases hentries : members.lookup "elements" with
    | none =>
      rw [hentries] at h
      cases h
    | some v =>
      cases v with
      | list entries =>
        simp only [hentries, Option.getD_some, bind_eq_ok, Error.within_eq_ok, make_eq_ok] at h
        obtain ⟨size, hsize, elements, helements, settings, hsettings, hids, rfl⟩ := h
        exact ⟨members, entries, rfl, hentries, hsize, helements, hsettings, hids⟩
      | _ =>
        rw [hentries] at h
        cases h
  | _ => cases h

/-- What is read is valid. -/
theorem Document.isValid_of_ofRecord {v : Datum} {d : Document Number} (h : ofRecord v = .ok d) :
    d.IsValid := by
  obtain ⟨members, entries, -, -, hsize, helements, hsettings, hids⟩ := ofRecord_eq_ok h
  refine ⟨(LabelSize.ofRecord_eq_ok hsize).1, fun e he => ?_, hids,
    (Settings.ofRecord_eq_ok hsettings).1⟩
  obtain ⟨entry, -, hentry⟩ := exists_of_mapM_eq_ok helements e he
  exact Element.isValid_of_ofRecord hentry

end LabelLayout
