import LabelLayout.Design.File
import LabelLayout.Proofs.Design.Storable
import LabelLayout.Proofs.Json.Spelled

/-!
# `LabelLayout.Proofs.Design.RoundTrip`: documents survive their files

* `Document.imported_exported`: a document whose fields have their types is read back
  from its file as it is, from the text and from the bytes.
* `Document.reload_eq_iff`: a document that came from a file is written and read back
  as it is exactly when no flag of an element is null and the extents of its lines
  can be written. A null flag comes back as the default of its kind.

Both rest on `Document.imported_of_storable`: what comes back of a storable document
is the document with its null flags filled in.
-/

set_option autoImplicit false

namespace LabelLayout

open Json

/-! ### Flags -/

/-- A flag of an element, which no check looks at. -/
def Attribute.isFlag : Attribute → Bool
  | .locked | .visible | .isVariable | .showText => true
  | _ => false

/-- A text metric, which no check looks at. -/
def Attribute.isMetric : Attribute → Bool
  | .lineHeight | .letterSpacing => true
  | _ => false

/-- No flag of the document's elements is null. -/
def Document.HasNoNullFlag (d : Document Number) : Prop :=
  ∀ e ∈ d.elements, ∀ a ∈ e.kind.attributes, a.isFlag = true → e.get a ≠ .null

/-- The default of a flag is not null. -/
theorem Kind.default_ne_null {a : Attribute} (h : a.isFlag = true) (kind : Kind) :
    kind.default a ≠ .null := by
  cases a with
  | locked | visible | isVariable | showText => simp [Kind.default]
  | _ => cases h

/-- An element is filled already exactly when no flag of it is null. -/
theorem Element.filled_eq_self_iff {e : Element Number} :
    e.filled = e ↔ ∀ a ∈ e.kind.attributes, a.isFlag = true → e.get a ≠ .null := by
  constructor
  · intro h a ha hflag hnull
    have hget := e.get_filled a ha
    rw [h, hnull] at hget
    exact Kind.default_ne_null hflag e.kind hget.symm
  · intro h
    obtain ⟨⟨id, x, y, width, height, rotation, locked, visible⟩, body⟩ := e
    have hlocked : locked ≠ .null := h .locked (List.mem_append_left _ (by decide)) rfl
    have hvisible : visible ≠ .null := h .visible (List.mem_append_left _ (by decide)) rfl
    cases body with
    | text t =>
      have hvariable : t.isVariable ≠ .null :=
        h .isVariable (by decide : Attribute.isVariable ∈ Kind.text.attributes) rfl
      simp only [filled, Frame.filled, Body.filled, Value.orElse_of_ne hlocked,
        Value.orElse_of_ne hvisible, Value.orElse_of_ne hvariable]
    | barcode b =>
      have hvariable : b.isVariable ≠ .null :=
        h .isVariable (by decide : Attribute.isVariable ∈ Kind.barcode.attributes) rfl
      have hshow : b.showText ≠ .null :=
        h .showText (by decide : Attribute.showText ∈ Kind.barcode.attributes) rfl
      simp only [filled, Frame.filled, Body.filled, Value.orElse_of_ne hlocked,
        Value.orElse_of_ne hvisible, Value.orElse_of_ne hvariable, Value.orElse_of_ne hshow]
    | qrcode q =>
      have hvariable : q.isVariable ≠ .null :=
        h .isVariable (by decide : Attribute.isVariable ∈ Kind.qrcode.attributes) rfl
      simp only [filled, Frame.filled, Body.filled, Value.orElse_of_ne hlocked,
        Value.orElse_of_ne hvisible, Value.orElse_of_ne hvariable]
    | image _ | shape _ | line _ =>
      simp only [filled, Frame.filled, Body.filled, Value.orElse_of_ne hlocked,
        Value.orElse_of_ne hvisible]

/-- A document is filled already exactly when no flag of its elements is null. -/
theorem Document.filled_eq_self_iff {d : Document Number} : d.filled = d ↔ d.HasNoNullFlag := by
  have helements : d.filled = d ↔ d.elements.map Element.filled = d.elements.map id := by
    obtain ⟨size, elements, settings⟩ := d
    simp only [filled, mk.injEq, List.map_id, true_and, and_true]
  rw [helements, List.map_inj_left]
  exact forall₂_congr fun e _ => Element.filled_eq_self_iff

/-! ### Files -/

/-- The file of a storable document is read as the document with its null flags filled in. -/
theorem Document.imported_of_storable {d : Document Number} (hvalid : d.IsValid)
    (hstorable : d.IsStorable) {name : String} (hname : d.size.name = .str name) :
    ∃ text, d.exported = .ok text ∧ Json.read text = .ok d.record ∧
      imported text = .ok (some d.filled) := by
  obtain ⟨text, hwrite, hread⟩ := read_write Layout.isBlank_indented (readable_record hstorable)
  refine ⟨text, hwrite, hread, ?_⟩
  rw [imported, hread, accept, ofRecord_record hvalid hname]

/-! ### Documents with their declared types -/

/-- Every flag is a flag, and every text metric is null or a number. -/
structure Element.IsTyped (e : Element Number) : Prop where
  flags : ∀ a ∈ e.kind.attributes, a.isFlag = true → ∃ b, e.get a = .bool b
  metrics : ∀ a ∈ e.kind.attributes, a.isMetric = true →
    e.get a = .null ∨ ∃ x, e.get a = .num x

/-- What no check looks at has its type all the same. -/
structure Document.IsTyped (d : Document Number) : Prop where
  name : ∃ text, d.size.name = .str text
  elements : ∀ e ∈ d.elements, e.IsTyped
  showGrid : ∃ b, d.settings.showGrid = .bool b
  showRulers : ∃ b, d.settings.showRulers = .bool b

/-- No number is an integer of more than `maxIntegerDigits` digits. -/
structure Document.IsWritable (d : Document Number) : Prop where
  width : d.size.width.isWritable = true
  height : d.size.height.isWritable = true
  elements : ∀ e ∈ d.elements, ∀ a ∈ e.kind.attributes, ∀ x, e.get a = .num x →
    x.isWritable = true
  gridSize : d.settings.gridSize.isWritable = true

/-- The texts of the document are sequences of code points, halves of surrogate pairs
included. Characters that spell no code points stand for no text. -/
structure Document.IsSpelled (d : Document Number) : Prop where
  name : ∀ text, d.size.name = .str text → Text.IsSpelled text.toList
  elements : ∀ e ∈ d.elements, ∀ a ∈ e.kind.attributes, ∀ text, e.get a = .str text →
    Text.IsSpelled text.toList

/-- A field that is checked holds a text, a number or null. -/
theorem Element.get_checked (e : Element Number) {a : Attribute} (hflag : a.isFlag = false)
    (hmetric : a.isMetric = false) :
    (∃ text, e.get a = .str text) ∨ (∃ x, e.get a = .num x) ∨ e.get a = .null := by
  have htext : ∀ t : Option String, (∃ text, (optionalText t : Datum) = .str text) ∨
      (optionalText t : Datum) = .null := by
    rintro (_ | text)
    · exact .inr rfl
    · exact .inl ⟨text, rfl⟩
  obtain ⟨frame, body⟩ := e
  -- Of the frame only the flags are unchecked, of the bodies the flags and the metrics.
  by_cases hframe : a ∈ frameAttributes
  · rw [get_of_mem hframe]
    cases a with
    | locked | visible => cases hflag
    | _ => simp [Frame.get]
  · rw [get_of_notMem hframe]
    cases body <;> cases a <;> first
      | (cases hflag; done)
      | (cases hmetric; done)
      | exact .inl ⟨_, rfl⟩
      | exact .inr (.inl ⟨_, rfl⟩)
      | exact .inr (.inr rfl)
      | exact (htext _).imp_right .inr

/-- A field of a typed element is null, a flag, a number or a text. -/
theorem Element.IsTyped.get_cases {e : Element Number} (h : e.IsTyped) {a : Attribute}
    (ha : a ∈ e.kind.attributes) :
    e.get a = .null ∨ (∃ b, e.get a = .bool b) ∨ (∃ x, e.get a = .num x) ∨
      ∃ text, e.get a = .str text := by
  cases hflag : a.isFlag with
  | true => exact .inr (.inl (h.flags a ha hflag))
  | false =>
    cases hmetric : a.isMetric with
    | true =>
      rcases h.metrics a ha hmetric with hnull | hx
      · exact .inl hnull
      · exact .inr (.inr (.inl hx))
    | false =>
      rcases e.get_checked hflag hmetric with htext | hx | hnull
      · exact .inr (.inr (.inr htext))
      · exact .inr (.inr (.inl hx))
      · exact .inl hnull

/-- So it can stand at any depth, when it can be written. -/
theorem Element.IsTyped.readable_get {e : Element Number} (h : e.IsTyped) (room : Nat)
    {a : Attribute} (ha : a ∈ e.kind.attributes)
    (hwritable : ∀ x, e.get a = .num x → x.isWritable = true) : Readable room (e.get a) := by
  rcases h.get_cases ha with hv | ⟨b, hv⟩ | ⟨x, hv⟩ | ⟨text, hv⟩ <;> rw [hv]
  · trivial
  · trivial
  · exact hwritable x hv
  · trivial

/-- A document with its declared types is storable when its numbers can be written. -/
theorem Document.IsTyped.isStorable {d : Document Number} (h : d.IsTyped)
    (hwritable : d.IsWritable) : d.IsStorable := by
  obtain ⟨name, hname⟩ := h.name
  obtain ⟨grid, hgrid⟩ := h.showGrid
  obtain ⟨rulers, hrulers⟩ := h.showRulers
  refine ⟨?_, hwritable.width, hwritable.height, fun e he a ha => ?_, hwritable.gridSize, ?_, ?_⟩
  · rw [hname]
    trivial
  · exact (h.elements e he).readable_get _ ha (hwritable.elements e he a ha)
  · rw [hgrid]
    trivial
  · rw [hrulers]
    trivial

/-- A document with its declared types has no null flags. -/
theorem Document.IsTyped.hasNoNullFlag {d : Document Number} (h : d.IsTyped) :
    d.HasNoNullFlag := by
  intro e he a ha hflag
  obtain ⟨b, hb⟩ := (h.elements e he).flags a ha hflag
  rw [hb]
  simp

/-! ### Bytes -/

/-- The words of an enumeration are ASCII. -/
theorem isSpelled_name_kind (kind : Kind) : Text.IsSpelled (Choice.name kind).toList :=
  Text.isSpelled_of_notMem (by cases kind <;> decide)

theorem isSpelled_name_category (category : SizeCategory) :
    Text.IsSpelled (Choice.name category).toList :=
  Text.isSpelled_of_notMem (by cases category <;> decide)

theorem isSpelled_name_units (units : LengthUnit) : Text.IsSpelled (Choice.name units).toList :=
  Text.isSpelled_of_notMem (by cases units <;> decide)

theorem isSpelled_key (a : Attribute) : Text.IsSpelled a.key.toList :=
  Text.isSpelled_of_notMem (by cases a <;> decide)

/-- A field of a typed element spells code points, if it does when it is a text. -/
theorem Element.IsTyped.spellsCodePoints_get {e : Element Number} (h : e.IsTyped)
    {a : Attribute} (ha : a ∈ e.kind.attributes)
    (hspelled : ∀ text, e.get a = .str text → Text.IsSpelled text.toList) :
    SpellsCodePoints (e.get a) := by
  rcases h.get_cases ha with hv | ⟨b, hv⟩ | ⟨x, hv⟩ | ⟨text, hv⟩ <;> rw [hv]
  · trivial
  · trivial
  · trivial
  · exact hspelled text hv

theorem membersSpellCodePoints_iff {members : List (String × Datum)} :
    MembersSpellCodePoints members ↔
      ∀ m ∈ members, Text.IsSpelled m.1.toList ∧ SpellsCodePoints m.2 := by
  induction members with
  | nil => simp [MembersSpellCodePoints]
  | cons m members ih =>
    obtain ⟨name, v⟩ := m
    rw [MembersSpellCodePoints, ih, List.forall_mem_cons, and_assoc]

theorem spellCodePoints_iff {items : List Datum} :
    SpellCodePoints items ↔ ∀ v ∈ items, SpellsCodePoints v := by
  induction items with
  | nil => simp [SpellCodePoints]
  | cons v items ih => rw [SpellCodePoints, ih, List.forall_mem_cons]

/-- The record of a typed document spells code points if the document does. -/
theorem Document.IsTyped.spellsCodePoints_record {d : Document Number} (h : d.IsTyped)
    (hspelled : d.IsSpelled) : SpellsCodePoints d.record := by
  -- The keys are ASCII, so only the values of the fields matter.
  have ascii : ∀ name ∈ ["size", "elements", "settings", "name", "width", "height", "category",
      "gridSize", "showGrid", "showRulers", "units", "type"], Text.IsSpelled name.toList := by
    intro name hname
    refine Text.isSpelled_of_notMem ?_
    revert name
    decide
  obtain ⟨name, hname⟩ := h.name
  obtain ⟨grid, hgrid⟩ := h.showGrid
  obtain ⟨rulers, hrulers⟩ := h.showRulers
  have hsize : SpellsCodePoints (.object d.size.record) := by
    refine membersSpellCodePoints_iff.mpr ?_
    simp only [LabelSize.record, List.forall_mem_cons, hname]
    exact ⟨⟨ascii _ (by decide), hspelled.name name hname⟩, ⟨ascii _ (by decide), trivial⟩,
      ⟨ascii _ (by decide), trivial⟩, ⟨ascii _ (by decide), isSpelled_name_category _⟩,
      List.forall_mem_nil _⟩
  have helements : SpellsCodePoints (.list (d.elements.map fun e => .object e.record)) := by
    refine spellCodePoints_iff.mpr fun v hv => ?_
    obtain ⟨e, he, rfl⟩ := List.mem_map.mp hv
    refine membersSpellCodePoints_iff.mpr ?_
    rw [Element.record, List.forall_mem_cons]
    refine ⟨⟨ascii "type" (by decide), isSpelled_name_kind _⟩, fun m hm => ?_⟩
    obtain ⟨a, ha, rfl⟩ := List.mem_map.mp (List.mem_filter.mp hm).1
    exact ⟨isSpelled_key a,
      (h.elements e he).spellsCodePoints_get ha (hspelled.elements e he a ha)⟩
  have hsettings : SpellsCodePoints (.object d.settings.record) := by
    refine membersSpellCodePoints_iff.mpr ?_
    simp only [Settings.record, List.forall_mem_cons, hgrid, hrulers]
    exact ⟨⟨ascii _ (by decide), trivial⟩, ⟨ascii _ (by decide), trivial⟩,
      ⟨ascii _ (by decide), trivial⟩, ⟨ascii _ (by decide), isSpelled_name_units _⟩,
      List.forall_mem_nil _⟩
  refine membersSpellCodePoints_iff.mpr ?_
  simp only [List.forall_mem_cons]
  exact ⟨⟨ascii _ (by decide), hsize⟩, ⟨ascii _ (by decide), helements⟩,
    ⟨ascii _ (by decide), hsettings⟩, List.forall_mem_nil _⟩

/-- The bytes of a file are read as its text is. -/
theorem Document.importedBytes_encodeUtf8 {d : Document Number} {text : String}
    (h : d.exported = .ok text) (hspells : SpellsCodePoints d.record) :
    importedBytes (encodeUtf8 text.toList) = imported text := by
  have htext : text.toList = printAt .indented 0 d.record := by
    rw [exported, write] at h
    split at h
    · cases h
      exact String.toList_ofList
    · cases h
  -- The encoding is detected by the first two bytes, a brace and a line feed.
  obtain ⟨cs, hcs⟩ : ∃ cs, printAt .indented 0 d.record = '\x7b' :: '\n' :: cs := ⟨_, rfl⟩
  have hspelled := isSpelled_printAt Layout.isBlank_indented d.record 0 hspells
  rw [hcs] at htext hspelled
  rw [importedBytes, imported, Json.read, htext,
    decode_encodeUtf8 hspelled (by decide) (by decide), expect, ok_bind]

/-! ### The round trips -/

/-- A document with its declared types and numbers that can be written is read back from
its file as it is, and from the bytes of that file. -/
theorem Document.imported_exported {d : Document Number} (hvalid : d.IsValid)
    (htyped : d.IsTyped) (hwritable : d.IsWritable) :
    ∃ text, d.exported = .ok text ∧ imported text = .ok (some d) ∧
      (d.IsSpelled → importedBytes (encodeUtf8 text.toList) = .ok (some d)) := by
  obtain ⟨name, hname⟩ := htyped.name
  obtain ⟨text, htext, -, himported⟩ :=
    imported_of_storable hvalid (htyped.isStorable hwritable) hname
  rw [filled_eq_self_iff.mpr htyped.hasNoNullFlag] at himported
  refine ⟨text, htext, himported, fun hspelled => ?_⟩
  rw [importedBytes_encodeUtf8 htext (htyped.spellsCodePoints_record hspelled), himported]

/-- A label with a text that is escaped and a line between whole numbers. -/
def Document.sample : Document Number where
  size := ⟨.str "2×1", .int 2, .fraction 3 2, .product⟩
  elements := [
    ⟨⟨"price", .int 5, .fraction 1 3, .int 40, .int 20, .int 0, .bool false, .bool true⟩,
      .text {
        content := "5 €\n\"net\"", fontSize := .int 12, fontFamily := "Inter"
        fontWeight := .normal, color := "#000000", align := .left
        lineHeight := .null, letterSpacing := .num (.int 1)
        isVariable := .bool true, dataField := some "product.price" }⟩,
    ⟨⟨"rule", .int 90, .int 5, .int 80, .int 0, .int 0, .bool true, .bool true⟩,
      .line {
        x2 := .int 10, y2 := .int 5, stroke := "#000000", strokeWidth := .int 1
        strokeStyle := .solid }⟩]
  settings := Settings.initial

theorem Document.isValid_sample : sample.IsValid where
  size := ⟨by decide +kernel, by decide +kernel⟩
  elements := by
    simp only [sample, List.forall_mem_cons]
    refine ⟨⟨by decide, fun line h => ?_⟩, ⟨by decide, fun line h => ?_⟩, List.forall_mem_nil _⟩
    · cases h
    · cases h
      rfl
  ids := by decide
  settings := isValid_initial.settings

theorem Document.isTyped_sample : sample.IsTyped where
  name := ⟨_, rfl⟩
  elements := by
    simp only [sample, List.forall_mem_cons]
    refine ⟨⟨by decide, fun a _ hmetric => ?_⟩, ⟨by decide, fun a ha hmetric => ?_⟩,
      List.forall_mem_nil _⟩
    · cases a with
      | lineHeight => exact .inl rfl
      | letterSpacing => exact .inr ⟨_, rfl⟩
      | _ => cases hmetric
    · exact absurd hmetric (by revert a; decide)
  showGrid := ⟨_, rfl⟩
  showRulers := ⟨_, rfl⟩

theorem Document.isWritable_sample : sample.IsWritable where
  width := by decide +kernel
  height := rfl
  elements := by
    have h : ∀ e ∈ sample.elements, ∀ a ∈ e.kind.attributes, Json.isWritable (e.get a) = true := by
      decide +kernel
    intro e he a ha x hx
    have hwritable := h e he a ha
    rwa [hx] at hwritable
  gridSize := rfl

/-- Texts without the mark of surrogate halves are texts of code points. -/
theorem Document.isSpelled_of_notMem {d : Document Number}
    (hname : d.size.name.text?.all (fun text => Text.mark ∉ text.toList) = true)
    (helements : ∀ e ∈ d.elements, ∀ a ∈ e.kind.attributes,
      (e.get a).text?.all (fun text => Text.mark ∉ text.toList) = true) : d.IsSpelled where
  name text h := by
    rw [h] at hname
    exact Text.isSpelled_of_notMem (of_decide_eq_true hname)
  elements e he a ha text h := by
    have hmark := helements e he a ha
    rw [h] at hmark
    exact Text.isSpelled_of_notMem (of_decide_eq_true hmark)

theorem Document.isSpelled_sample : sample.IsSpelled :=
  isSpelled_of_notMem (by decide) (by decide +kernel)

/-- The sample is read back from its file, from the text and from the bytes. -/
theorem Document.imported_exported_sample :
    sample.IsValid ∧ sample.IsTyped ∧ sample.IsWritable ∧ sample.IsSpelled ∧
      ∃ text, sample.exported = .ok text ∧ imported text = .ok (some sample) ∧
        importedBytes (encodeUtf8 text.toList) = .ok (some sample) := by
  obtain ⟨text, htext, hback, hbytes⟩ :=
    imported_exported isValid_sample isTyped_sample isWritable_sample
  exact ⟨isValid_sample, isTyped_sample, isWritable_sample, isSpelled_sample, text, htext, hback,
    hbytes isSpelled_sample⟩

/-- A document comes from a text when the text is read as a record of it. -/
theorem Document.imported_eq_some {text : String} {d : Document Number}
    (h : imported text = .ok (some d)) :
    ∃ v, Json.read text = .ok v ∧ ofRecord v = .ok d := by
  rw [imported] at h
  cases hread : Json.read text with
  | error failure =>
    rw [hread] at h
    cases failure <;> cases h
  | ok v =>
    rw [hread] at h
    cases hrecord : ofRecord v with
    | ok d' =>
      simp only [accept, hrecord, Except.ok.injEq, Option.some.injEq] at h
      rw [← h]
      exact ⟨v, rfl, hrecord⟩
    | error e =>
      simp only [accept, hrecord] at h
      split at h <;> cases h

/-- A record tells whether a flag is null. -/
theorem Document.hasNoNullFlag_of_record_eq {d : Document Number}
    (h : d.filled.record = d.record) : d.HasNoNullFlag := by
  have hrecords : (d.elements.map Element.filled).map (fun e => (.object e.record : Datum))
      = d.elements.map fun e => .object e.record := by
    simpa [record, filled] using h
  rw [List.map_map, List.map_inj_left] at hrecords
  intro e he a ha hflag hnull
  have hrecord : e.filled.record = e.record := Value.object.inj (hrecords e he)
  -- Where the flag is null, one record has no such key and the other has the default.
  have hget : e.filled.get a = e.kind.default a := by
    rw [e.get_filled a ha, hnull]
    rfl
  have hne : e.filled.get a ≠ .null := by
    rw [hget]
    exact Kind.default_ne_null hflag e.kind
  have hlookup := Element.lookup_record_of_ne hne (by rwa [e.kind_filled])
  rw [hrecord, Element.lookup_record_of_null hnull] at hlookup
  cases hlookup

/-- A document is written when its record can be, and then the extents of its lines can. -/
theorem Document.hasWritableExtents_of_exported {d : Document Number} {out : String}
    (h : d.exported = .ok out) : d.HasWritableExtents := by
  rw [exported, write] at h
  split at h
  · next hwritable => exact hasWritableExtents_of_isWritable hwritable
  · cases h

/-- The file of a document that was read stands for its record, and is read as the
document with its null flags filled in. -/
theorem Document.imported_of_ofRecord {v : Datum} {d : Document Number}
    (hv : Readable maxDepth v) (h : ofRecord v = .ok d) (hextents : d.HasWritableExtents) :
    ∃ out, d.exported = .ok out ∧ Json.read out = .ok d.record ∧
      imported out = .ok (some d.filled) := by
  obtain ⟨members, entries, -, -, hsize, -⟩ := ofRecord_eq_ok h
  obtain ⟨-, _, -, hname, -⟩ := LabelSize.ofRecord_eq_ok hsize
  exact imported_of_storable (isValid_of_ofRecord h) (isStorable_of_ofRecord hv h hextents) hname

/-- A document that came from a file is written when the extents of its lines can be,
and comes back with its null flags filled in. It comes back as it was, and is written
the same once more, exactly when no flag was null. -/
theorem Document.reload_eq_iff {text : String} {d : Document Number}
    (h : imported text = .ok (some d)) :
    ((∃ out, d.exported = .ok out ∧ imported out = .ok (some d)) ↔
        d.HasWritableExtents ∧ d.HasNoNullFlag) ∧
      ∀ out, d.exported = .ok out → imported out = .ok (some d.filled) ∧
        (d.filled.exported = .ok out ↔ d.HasNoNullFlag) := by
  obtain ⟨v, hread, hrecord⟩ := imported_eq_some h
  have hv := readable_of_readChars hread
  -- What a file gives back does not depend on whether flags are null.
  have written : ∀ out, d.exported = .ok out → Json.read out = .ok d.record ∧
      imported out = .ok (some d.filled) := by
    intro out hout
    obtain ⟨out', hout', hreads⟩ :=
      imported_of_ofRecord hv hrecord (hasWritableExtents_of_exported hout)
    rw [hout] at hout'
    cases hout'
    exact hreads
  refine ⟨⟨?_, ?_⟩, fun out hout => ⟨(written out hout).2, ?_, ?_⟩⟩
  · rintro ⟨out, hout, hback⟩
    rw [(written out hout).2] at hback
    exact ⟨hasWritableExtents_of_exported hout,
      filled_eq_self_iff.mp (Option.some.inj (Except.ok.inj hback))⟩
  · rintro ⟨hextents, hflags⟩
    obtain ⟨out, hout, -, hback⟩ := imported_of_ofRecord hv hrecord hextents
    rw [filled_eq_self_iff.mpr hflags] at hback
    exact ⟨out, hout, hback⟩
  · intro hagain
    -- The file stands for both records, so they are the same.
    obtain ⟨hreads, hback⟩ := written out hout
    obtain ⟨w, hw, hfilled⟩ := imported_eq_some hback
    obtain ⟨out', hout', hreads', -⟩ := imported_of_ofRecord (readable_of_readChars hw) hfilled
      (hasWritableExtents_of_exported hagain)
    rw [hagain] at hout'
    cases hout'
    rw [hreads] at hreads'
    exact hasNoNullFlag_of_record_eq (Except.ok.inj hreads').symm
  · intro hflags
    rw [filled_eq_self_iff.mpr hflags]
    exact hout

/-- A design file with a flag that is null. -/
def Document.textWithNullFlag : String :=
  "\x7b\"size\": \x7b\"width\": 2, \"height\": 1\x7d, \"elements\": [" ++
    "\x7b\"type\": \"image\", \"id\": \"a\", \"visible\": null\x7d]\x7d"

/-- The document of that file. -/
def Document.withNullFlag : Document Number where
  size := ⟨.str "Custom", .int 2, .int 1, .custom⟩
  elements := [
    ⟨⟨"a", .fraction 5 1, .fraction 5 1, .fraction 25 1, .fraction 25 1, .fraction 0 1,
      .bool false, .null⟩,
      .image { src := "/placeholder-logo.png", objectFit := .contain }⟩]
  settings := Settings.initial

theorem Document.imported_textWithNullFlag :
    imported textWithNullFlag = .ok (some withNullFlag) := by
  decide +kernel

/-- A document with a null flag is read from a file and does not come back from its own. -/
theorem Document.reload_ne_withNullFlag :
    imported textWithNullFlag = .ok (some withNullFlag) ∧
      (∃ out, withNullFlag.exported = .ok out) ∧
      ∀ out, withNullFlag.exported = .ok out →
        imported out ≠ .ok (some withNullFlag) ∧ withNullFlag.filled.exported ≠ .ok out := by
  have hnull : ¬ withNullFlag.HasNoNullFlag := fun h =>
    h _ (List.mem_singleton.mpr rfl) .visible (by decide) rfl rfl
  have hextents : withNullFlag.HasWritableExtents := by
    intro e he hline
    rw [List.mem_singleton.mp he] at hline
    cases hline
  obtain ⟨v, hread, hrecord⟩ := imported_eq_some imported_textWithNullFlag
  obtain ⟨out, hexported, -⟩ :=
    imported_of_ofRecord (readable_of_readChars hread) hrecord hextents
  obtain ⟨hreload, hout⟩ := reload_eq_iff imported_textWithNullFlag
  refine ⟨imported_textWithNullFlag, ⟨out, hexported⟩,
    fun out h => ⟨fun hback => ?_, fun hagain => ?_⟩⟩
  · exact hnull (hreload.mp ⟨out, h, hback⟩).2
  · exact hnull ((hout out h).2.mp hagain)

end LabelLayout
