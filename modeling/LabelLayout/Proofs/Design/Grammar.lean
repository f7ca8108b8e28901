import LabelLayout.Proofs.Design.Refusal
import LabelLayout.Proofs.Element.Rule
import Mathlib.Data.List.Nodup

/-!
# `LabelLayout.Proofs.Design.Grammar`: which data is a design

`Document.IsDesign` says which values are records of documents: what has to be there,
what each member that is there takes, and that no two elements have the same id. It
looks at the value alone, member by member. `Document.Describes` says which document
such a value describes: the elements in the order of the list, each with the members of
its entry and the defaults of its kind. Members that neither of them names are passed
over.

`Document.ofRecord_iff_isDesign` is the main statement. Reading a value gives a document
exactly when the value is a design, and the document is the one that it describes.
-/

set_option autoImplicit false

namespace LabelLayout

/-! ### What records are -/

/-- The fields that a record gives to a kind: its members, and the defaults where it has
none. -/
def Fields.given (kind : Kind) (v : Datum) : Fields := fun a =>
  (v.member? a.key).getD (kind.default a)

/-- A record of an element of a kind. The members that the kind looks at follow their
rules, and the ends of a line have distances. -/
structure Element.IsRecord (kind : Kind) (v : Datum) : Prop where
  type : v.member? "type" = some (Choice.datum kind)
  id : ∃ s, s ≠ "" ∧ v.member? "id" = some (.str s)
  fields : ∀ a ∈ kind.inputs, ∀ w, v.member? a.key = some w → a.rule.Admits w
  distances : kind = .line → (Fields.given kind v).HaveDistances

/-- The element of a record has the kind that the record names and the fields that it
gives. A line has the extent between its ends. -/
structure Element.Describes (v : Datum) (e : Element Number) : Prop where
  type : v.member? "type" = some (Choice.datum e.kind)
  fields : ∀ a ∈ e.kind.inputs, e.get a = Fields.given e.kind v a
  extent : ∀ line, e.body = .line line → e.frame.spanning line.x2 line.y2 = .ok e.frame

/-- A number that is not zero or negative. -/
def Value.IsNotNonpositive (v : Datum) : Prop := ∃ x, v = .num x ∧ x.le (.int 0) = false

/-- A record of a size. -/
structure LabelSize.IsRecord (v : Datum) : Prop where
  width : ∃ w, v.member? "width" = some w ∧ w.IsNotNonpositive
  height : ∃ h, v.member? "height" = some h ∧ h.IsNotNonpositive
  category : ∀ c, v.member? "category" = some c → (Rule.choice SizeCategory).Admits c

/-- The size of a record. Its name is a text, whatever the record holds. -/
structure LabelSize.Describes (v : Datum) (size : LabelSize Number) : Prop where
  name : size.name = .str ((v.member? "name").getD (.str "Custom")).display
  width : v.member? "width" = some (.num size.width)
  height : v.member? "height" = some (.num size.height)
  category : Choice.datum size.category = (v.member? "category").getD (.str "custom")

/-- A record of settings, or null. -/
structure Settings.IsRecord (v : Datum) : Prop where
  form : v = .null ∨ ∃ members, v = .object members
  gridSize : ∀ g, v.member? "gridSize" = some g → g.IsNotNonpositive
  units : ∀ u, v.member? "units" = some u → (Rule.choice LengthUnit).Admits u

/-- The settings of a record have its members, and are the initial ones where it has
none. -/
structure Settings.Describes (v : Datum) (settings : Settings Number) : Prop where
  gridSize : .num settings.gridSize = (v.member? "gridSize").getD (.num initial.gridSize)
  showGrid : settings.showGrid = (v.member? "showGrid").getD initial.showGrid
  showRulers : settings.showRulers = (v.member? "showRulers").getD initial.showRulers
  units : Choice.datum settings.units = (v.member? "units").getD (Choice.datum initial.units)

/-- A value that is the record of a document. -/
structure Document.IsDesign (v : Datum) : Prop where
  size : ∃ size, v.member? "size" = some size ∧ LabelSize.IsRecord size
  elements : ∃ entries, v.member? "elements" = some (.list entries) ∧
    (∀ entry ∈ entries, ∃ kind, Element.IsRecord kind entry) ∧
    (entries.map (Value.member? "id")).Nodup
  settings : Settings.IsRecord ((v.member? "settings").getD .null)

/-- The document of a design has the size, the elements in their order and the settings
that its parts describe. -/
structure Document.Describes (v : Datum) (d : Document Number) : Prop where
  size : ∃ size, v.member? "size" = some size ∧ LabelSize.Describes size d.size
  elements : ∃ entries, v.member? "elements" = some (.list entries) ∧
    List.Forall₂ Element.Describes entries d.elements
  settings : Settings.Describes ((v.member? "settings").getD .null) d.settings

/-! ### Elements -/

/-- The fields that are given follow their rules exactly when those among the members do,
because every default but that of the id does. -/
theorem Fields.admits_given_iff {kind : Kind} {v : Datum} (hid : ∃ w, v.member? "id" = some w) :
    (∀ a ∈ kind.inputs, a.rule.Admits (given kind v a)) ↔
      ∀ a ∈ kind.inputs, ∀ w, v.member? a.key = some w → a.rule.Admits w := by
  refine forall₂_congr fun a _ => ?_
  rw [given]
  cases hlookup : v.member? a.key with
  | some w => simp
  | none =>
    have hne : a ≠ .id := by
      rintro rfl
      obtain ⟨w, hw⟩ := hid
      exact nomatch hlookup.symm.trans hw
    simpa using kind.admits_default hne

/-- The id of a record is a text that is not empty exactly when the id that it gives is. -/
theorem Fields.admits_given_id {kind : Kind} {v : Datum} :
    Rule.id.Admits (given kind v .id) ↔ ∃ s, s ≠ "" ∧ v.member? "id" = some (.str s) := by
  have hgiven : given kind v .id = (v.member? "id").getD .null := rfl
  rw [hgiven]
  cases v.member? "id" with
  | none => simp [Rule.Admits]
  | some w => simp [Rule.Admits]

/-- A value is read as an element of a kind when it names the kind, has an id and gives
the fields that the element is assembled from. -/
theorem Element.ofRecord_iff_assemble {v : Datum} {e : Element Number} :
    ofRecord v = .ok e ↔ v.member? "type" = some (Choice.datum e.kind) ∧
      Element.assemble e.kind (Fields.given e.kind v) = .ok e := by
  constructor
  · intro h
    cases v with
    | object members =>
      simp only [ofRecord, bind_eq_ok] at h
      obtain ⟨kind?, hkind, h⟩ := h
      cases kind? with
      | none => cases h
      | some kind =>
        simp only [guard_eq_ok, Error.within_eq_ok] at h
        obtain rfl := (assemble_eq_ok.mp h.2).1
        exact ⟨Kind.ofDatum?_eq_some.mp hkind, h.2⟩
    | _ => cases h
  · rintro ⟨htype, hassemble⟩
    cases v with
    | object members =>
      -- An element has an id, and there is no default for it.
      obtain ⟨-, hvalid, hfields⟩ := assemble_eq_ok.mp hassemble
      have hadmits : Rule.id.Admits (Fields.given e.kind (.object members) .id) := by
        rw [hfields .id (Kind.id_mem_inputs _)]
        exact ⟨e.id, hvalid.id_ne_empty, rfl⟩
      obtain ⟨s, -, hid⟩ := Fields.admits_given_id.mp hadmits
      have hhas : Members.has members "id" = true := by
        show (List.lookup "id" members).isSome = true
        rw [show List.lookup "id" members = some (.str s) from hid]
        rfl
      rw [ofRecord_object (Kind.ofDatum?_eq_some.mpr htype) hhas, Error.within_eq_ok]
      exact hassemble
    | _ => cases htype

/-- A value is read as an element exactly when it is a record of an element. -/
theorem Element.exists_ofRecord_iff {v : Datum} :
    (∃ e, ofRecord v = .ok e) ↔ ∃ kind, IsRecord kind v := by
  constructor
  · rintro ⟨e, h⟩
    obtain ⟨htype, hassemble⟩ := ofRecord_iff_assemble.mp h
    obtain ⟨hadmits, hdistances⟩ := exists_assemble_iff.mp ⟨e, hassemble⟩
    have hid := Fields.admits_given_id.mp (hadmits .id (Kind.id_mem_inputs _))
    have ⟨s, _, hs⟩ := hid
    exact ⟨e.kind, htype, hid, (Fields.admits_given_iff ⟨_, hs⟩).mp hadmits, hdistances⟩
  · rintro ⟨kind, hrecord⟩
    obtain ⟨s, -, hs⟩ := hrecord.id
    have hadmits := (Fields.admits_given_iff ⟨_, hs⟩).mpr hrecord.fields
    obtain ⟨e, hassemble⟩ := exists_assemble_iff.mpr ⟨hadmits, hrecord.distances⟩
    obtain rfl := (assemble_eq_ok.mp hassemble).1
    exact ⟨e, ofRecord_iff_assemble.mpr ⟨hrecord.type, hassemble⟩⟩

/-- What is read of the record of an element is the element that it describes. -/
theorem Element.ofRecord_iff_describes {v : Datum} {e : Element Number} :
    ofRecord v = .ok e ↔ (∃ kind, IsRecord kind v) ∧ Describes v e := by
  rw [← exists_ofRecord_iff, ofRecord_iff_assemble, assemble_eq_ok]
  constructor
  · intro h
    have ⟨htype, _, hvalid, hfields⟩ := h
    exact ⟨⟨e, ofRecord_iff_assemble.mpr ⟨htype, assemble_eq_ok.mpr h.2⟩⟩,
      htype, fun a ha => (hfields a ha).symm, hvalid.spans⟩
  · rintro ⟨hread, hdescribes⟩
    obtain ⟨kind, hrecord⟩ := exists_ofRecord_iff.mp hread
    obtain ⟨s, hs, hid⟩ := hrecord.id
    -- The id of the element is the one that is given.
    have hget : (.str e.id : Datum) = .str s := by
      have hgiven := hdescribes.fields .id (Kind.id_mem_inputs _)
      rw [Fields.given, show v.member? Attribute.id.key = some (.str s) from hid] at hgiven
      exact hgiven
    have hne : e.id ≠ "" := by
      rw [Value.str.inj hget]
      exact hs
    exact ⟨hdescribes.type, rfl, ⟨hne, hdescribes.extent⟩,
      fun a ha => (hdescribes.fields a ha).symm⟩

/-! ### Sizes and settings -/

/-- What is read of the record of a size is the size that it describes. -/
theorem LabelSize.ofRecord_iff_describes {v : Datum} {size : LabelSize Number} :
    ofRecord v = .ok size ↔ IsRecord v ∧ Describes v size := by
  constructor
  · intro h
    cases v with
    | object members =>
      simp only [ofRecord, bind_eq_ok, requiredKey_eq_ok, Error.within_eq_ok, check_eq_ok] at h
      obtain ⟨width, hwidth, height, hheight, hvalid, hname, rfl, rfl, hcategory⟩ := h
      refine ⟨⟨⟨_, hwidth, _, rfl, hvalid.1⟩, ⟨_, hheight, _, rfl, hvalid.2⟩, fun c hc => ?_⟩,
        hname.symm, hwidth, hheight, hcategory.symm⟩
      rw [show List.lookup "category" members = some c from hc] at hcategory
      exact Rule.admits_choice_iff.mpr ⟨size.category, hcategory⟩
    | _ => cases h
  · rintro ⟨⟨⟨_, hw, w, rfl, hwpos⟩, ⟨_, hh, h, rfl, hhpos⟩, -⟩, hname, hwidth, hheight, hcategory⟩
    cases v with
    | object members =>
      simp only [ofRecord, bind_eq_ok, requiredKey_eq_ok, Error.within_eq_ok, check_eq_ok]
      cases hw.symm.trans hwidth
      cases hh.symm.trans hheight
      exact ⟨_, hwidth, _, hheight, ⟨hwpos, hhpos⟩, hname.symm, rfl, rfl, hcategory.symm⟩
    | _ => cases hwidth

/-- The record of a size describes one. -/
theorem LabelSize.IsRecord.exists_describes {v : Datum} (h : IsRecord v) :
    ∃ size, Describes v size := by
  obtain ⟨⟨_, hw, w, rfl, -⟩, ⟨_, hh, h, rfl, -⟩, hcategory⟩ := h
  have hchoice : ∃ c : SizeCategory,
      (v.member? "category").getD (.str "custom") = Choice.datum c := by
    cases hlookup : v.member? "category" with
    | none => exact ⟨.custom, rfl⟩
    | some c => exact Rule.admits_choice_iff.mp (hcategory c hlookup)
  obtain ⟨c, hc⟩ := hchoice
  exact ⟨⟨_, w, h, c⟩, rfl, hw, hh, hc.symm⟩

/-- What is read of the record of settings are the settings that it describes. -/
theorem Settings.ofRecord_iff_describes {v : Datum} {settings : Settings Number} :
    ofRecord v = .ok settings ↔ IsRecord v ∧ Describes v settings := by
  constructor
  · intro h
    cases v with
    | null =>
      cases h
      exact ⟨⟨.inl rfl, fun _ hg => (nomatch hg), fun _ hu => (nomatch hu)⟩, rfl, rfl, rfl, rfl⟩
    | object members =>
      simp only [ofRecord, Error.within_eq_ok, check_eq_ok] at h
      obtain ⟨hvalid, hgrid, hshow, hrulers, hunits⟩ := h
      refine ⟨⟨.inr ⟨members, rfl⟩, fun g hg => ?_, fun u hu => ?_⟩, hgrid.symm, hshow.symm,
        hrulers.symm, hunits.symm⟩
      · rw [show List.lookup "gridSize" members = some g from hg] at hgrid
        exact ⟨_, hgrid, hvalid⟩
      · rw [show List.lookup "units" members = some u from hu] at hunits
        exact Rule.admits_choice_iff.mpr ⟨_, hunits⟩
    | _ => cases h
  · rintro ⟨⟨rfl | ⟨members, rfl⟩, hgridSize, -⟩, hgrid, hshow, hrulers, hunits⟩
    -- Null gives no members, so every setting is the initial one.
    · obtain ⟨g, sg, sr, u⟩ := settings
      cases hgrid
      cases hshow
      cases hrulers
      obtain rfl : u = initial.units := Choice.datum_injective hunits
      rfl
    · simp only [ofRecord, Error.within_eq_ok, check_eq_ok]
      refine ⟨?_, hgrid.symm, hshow.symm, hrulers.symm, hunits.symm⟩
      cases hlookup : members.lookup "gridSize" with
      | none =>
        rw [show Value.member? "gridSize" (.object members) = none from hlookup] at hgrid
        rw [IsValid, Value.num.inj hgrid]
        exact Document.isValid_initial.settings
      | some g =>
        obtain ⟨x, rfl, hx⟩ := hgridSize g hlookup
        rw [show Value.member? "gridSize" (.object members) = some (.num x) from hlookup] at hgrid
        rw [IsValid, Value.num.inj hgrid]
        exact hx

/-- The record of settings describes some. -/
theorem Settings.IsRecord.exists_describes {v : Datum} (h : IsRecord v) :
    ∃ settings, Describes v settings := by
  have hgrid : ∃ x, (v.member? "gridSize").getD (.num initial.gridSize) = .num x := by
    cases hlookup : v.member? "gridSize" with
    | none => exact ⟨_, rfl⟩
    | some g =>
      obtain ⟨x, rfl, -⟩ := h.gridSize g hlookup
      exact ⟨x, rfl⟩
  have hunits : ∃ u : LengthUnit,
      (v.member? "units").getD (Choice.datum initial.units) = Choice.datum u := by
    cases hlookup : v.member? "units" with
    | none => exact ⟨_, rfl⟩
    | some u => exact Rule.admits_choice_iff.mp (h.units u hlookup)
  obtain ⟨x, hx⟩ := hgrid
  obtain ⟨u, hu⟩ := hunits
  exact ⟨⟨x, _, _, u⟩, hx.symm, rfl, rfl, hu.symm⟩

/-! ### Documents -/

/-- The ids of entries that are read are those of their elements. -/
theorem Element.member_id_of_ofRecord {entries : List Datum} {elements : List (Element Number)}
    (h : List.Forall₂ (fun entry e => ofRecord entry = .ok e) entries elements) :
    entries.map (Value.member? "id") = elements.map fun e => some (.str e.id) := by
  induction h with
  | nil => rfl
  | @cons entry e entries elements hentry _ ih =>
    obtain ⟨⟨kind, hrecord⟩, hdescribes⟩ := ofRecord_iff_describes.mp hentry
    obtain ⟨s, -, hid⟩ := hrecord.id
    have hgiven : (.str e.id : Datum) = (entry.member? "id").getD .null :=
      hdescribes.fields .id (Kind.id_mem_inputs _)
    rw [List.map_cons, List.map_cons, ih, hgiven, hid]
    rfl

/-- The ids of entries that are read are all different exactly when those of their
elements are. -/
theorem Element.nodup_ids_iff {entries : List Datum} {elements : List (Element Number)}
    (h : List.Forall₂ (fun entry e => ofRecord entry = .ok e) entries elements) :
    (entries.map (Value.member? "id")).Nodup ↔ (elements.map Element.id).Nodup := by
  have hinjective : Function.Injective fun s : String => some (.str s : Datum) :=
    fun s t hst => Value.str.inj (Option.some.inj hst)
  rw [member_id_of_ofRecord h, ← List.nodup_map_iff hinjective, List.map_map]
  rfl

/-- Reading gives a document when its parts are read and its elements have different ids. -/
theorem Document.ofRecord_iff_parts {v : Datum} {d : Document Number} :
    ofRecord v = .ok d ↔
      (∃ size, v.member? "size" = some size ∧ LabelSize.ofRecord size = .ok d.size) ∧
      (∃ entries, v.member? "elements" = some (.list entries) ∧
        entries.mapM Element.ofRecord = .ok d.elements) ∧
      Settings.ofRecord ((v.member? "settings").getD .null) = .ok d.settings ∧ d.ids.Nodup := by
  constructor
  · intro h
    obtain ⟨members, entries, rfl, hentries, hsize, helements, hsettings, hids⟩ :=
      ofRecord_eq_ok h
    refine ⟨?_, ⟨entries, hentries, helements⟩, hsettings, hids⟩
    cases hlookup : members.lookup "size" with
    | none =>
      rw [hlookup] at hsize
      cases hsize
    | some size =>
      rw [hlookup] at hsize
      exact ⟨size, hlookup, hsize⟩
  · rintro ⟨⟨size, hlookup, hsize⟩, ⟨entries, hentries, helements⟩, hsettings, hids⟩
    cases v with
    | object members =>
      have hlookup : members.lookup "size" = some size := hlookup
      have hentries : members.lookup "elements" = some (.list entries) := hentries
      have hsettings : Settings.ofRecord ((members.lookup "settings").getD .null)
          = .ok d.settings := hsettings
      have hmake : make d.size d.elements d.settings = .ok d := make_eq_ok.mpr ⟨hids, rfl⟩
      simp only [ofRecord, hlookup, hentries, Option.getD_some,
        LabelSize.truthy_of_ofRecord hsize, hsize, helements, hsettings, ok_bind, hmake]
      rfl
    | _ => cases hlookup

/-- What is read as a document is a design, and describes the document. -/
theorem Document.isDesign_of_ofRecord {v : Datum} {d : Document Number} (h : ofRecord v = .ok d) :
    IsDesign v ∧ Describes v d := by
  obtain ⟨⟨size, hlookup, hsize⟩, ⟨entries, hentries, helements⟩, hsettings, hids⟩ :=
    ofRecord_iff_parts.mp h
  obtain ⟨hsizeRecord, hsizeDescribes⟩ := LabelSize.ofRecord_iff_describes.mp hsize
  obtain ⟨hsettingsRecord, hsettingsDescribes⟩ := Settings.ofRecord_iff_describes.mp hsettings
  have hread := mapM_eq_ok.mp helements
  obtain ⟨hrecords, hdescribes⟩ := (List.forall₂_and_left _ _).mp
    (hread.imp fun _ _ => Element.ofRecord_iff_describes.mp)
  exact ⟨⟨⟨size, hlookup, hsizeRecord⟩,
      ⟨entries, hentries, hrecords, (Element.nodup_ids_iff hread).mpr hids⟩, hsettingsRecord⟩,
    ⟨size, hlookup, hsizeDescribes⟩, ⟨entries, hentries, hdescribes⟩, hsettingsDescribes⟩

/-- A design is read as the document that it describes. -/
theorem Document.IsDesign.ofRecord_of_describes {v : Datum} {d : Document Number}
    (hdesign : IsDesign v) (hdescribes : Describes v d) : ofRecord v = .ok d := by
  obtain ⟨⟨size, hlookup, hsizeRecord⟩, ⟨entries, hentries, hrecords, hids⟩, hsettingsRecord⟩ :=
    hdesign
  obtain ⟨⟨_, hlookup', hsize⟩, ⟨_, hentries', helements⟩, hsettings⟩ := hdescribes
  cases hlookup.symm.trans hlookup'
  cases hentries.symm.trans hentries'
  have hread : List.Forall₂ (fun entry e => Element.ofRecord entry = .ok e) entries d.elements :=
    ((List.forall₂_and_left _ _).mpr ⟨hrecords, helements⟩).imp
      fun _ _ => Element.ofRecord_iff_describes.mpr
  exact ofRecord_iff_parts.mpr
    ⟨⟨size, hlookup, LabelSize.ofRecord_iff_describes.mpr ⟨hsizeRecord, hsize⟩⟩,
      ⟨entries, hentries, mapM_eq_ok.mpr hread⟩,
      Settings.ofRecord_iff_describes.mpr ⟨hsettingsRecord, hsettings⟩,
      (Element.nodup_ids_iff hread).mp hids⟩

/-- A design describes a document. -/
theorem Document.IsDesign.exists_describes {v : Datum} (h : IsDesign v) :
    ∃ d, Describes v d := by
  obtain ⟨⟨size, hlookup, hsizeRecord⟩, ⟨entries, hentries, hrecords, -⟩, hsettingsRecord⟩ := h
  obtain ⟨labelSize, hsize⟩ := hsizeRecord.exists_describes
  obtain ⟨settings, hsettings⟩ := hsettingsRecord.exists_describes
  obtain ⟨elements, helements⟩ := exists_mapM fun entry hentry =>
    Element.exists_ofRecord_iff.mpr (hrecords entry hentry)
  have hdescribes : List.Forall₂ Element.Describes entries elements :=
    (mapM_eq_ok.mp helements).imp fun _ _ h => (Element.ofRecord_iff_describes.mp h).2
  exact ⟨⟨labelSize, elements, settings⟩, ⟨size, hlookup, hsize⟩,
    ⟨entries, hentries, hdescribes⟩, hsettings⟩

/-- A value is read as a document exactly when it is a design, and what is read is the
document that it describes. -/
theorem Document.ofRecord_iff_isDesign (v : Datum) :
    ((∃ d, ofRecord v = .ok d) ↔ IsDesign v) ∧
      ∀ d, ofRecord v = .ok d ↔ IsDesign v ∧ Describes v d := by
  refine ⟨⟨?_, fun hdesign => ?_⟩, fun d => ⟨isDesign_of_ofRecord, fun h => ?_⟩⟩
  · rintro ⟨d, h⟩
    exact (isDesign_of_ofRecord h).1
  · obtain ⟨d, hdescribes⟩ := hdesign.exists_describes
    exact ⟨d, hdesign.ofRecord_of_describes hdescribes⟩
  · exact h.1.ofRecord_of_describes h.2

end LabelLayout
