import LabelLayout.Proofs.Design.Record
import LabelLayout.Proofs.Json.Image

/-!
# `LabelLayout.Proofs.Design.Storable`: documents that a file can hold

A document is storable when its numbers can be written and the values in its
unchecked fields could stand where the record puts them. Its record is then a value
that a text can stand for (`Document.readable_record`).

A document that was read is storable but for one thing: the extent of a line is not
in the file but derived, so it may be an integer of more digits than can be written
(`Document.isStorable_of_ofRecord`).
-/

set_option autoImplicit false

namespace LabelLayout

namespace Json

/-! ### Values one by one -/

theorem areReadable_iff {room : Nat} {items : List Datum} :
    AreReadable room items ↔ ∀ v ∈ items, Readable room v := by
  induction items with
  | nil => simp [AreReadable]
  | cons v items ih => rw [AreReadable, ih, List.forall_mem_cons]

theorem areMembersReadable_iff {room : Nat} {members : List (String × Datum)} :
    AreMembersReadable room members ↔ ∀ m ∈ members, Readable room m.2 := by
  induction members with
  | nil => simp [AreMembersReadable]
  | cons m members ih =>
    obtain ⟨name, v⟩ := m
    rw [AreMembersReadable, ih, List.forall_mem_cons]

theorem areWritable_iff {items : List Datum} :
    areWritable items = true ↔ ∀ v ∈ items, isWritable v = true := by
  induction items with
  | nil => simp [areWritable]
  | cons v items ih => rw [areWritable, Bool.and_eq_true, ih, List.forall_mem_cons]

theorem areMembersWritable_iff {members : List (String × Datum)} :
    areMembersWritable members = true ↔ ∀ m ∈ members, isWritable m.2 = true := by
  induction members with
  | nil => simp [areMembersWritable]
  | cons m members ih =>
    obtain ⟨name, v⟩ := m
    rw [areMembersWritable, Bool.and_eq_true, ih, List.forall_mem_cons]

theorem mem_of_lookup {members : List (String × Datum)} {name : String} {v : Datum}
    (h : members.lookup name = some v) : (name, v) ∈ members := by
  obtain ⟨before, after, hsplit, -⟩ := List.lookup_eq_some_iff.mp h
  rw [hsplit]
  exact List.mem_append_right _ List.mem_cons_self

/-- A member of a readable object is readable. -/
theorem readable_of_lookup {room : Nat} {members : List (String × Datum)} {name : String}
    {v : Datum} (h : AreMembersReadable room members) (hv : members.lookup name = some v) :
    Readable room v :=
  areMembersReadable_iff.mp h _ (mem_of_lookup hv)

/-- So is a member, or what stands for it where it is absent. -/
theorem readable_getD {room : Nat} {members : List (String × Datum)} {name : String}
    {other : Datum} (h : AreMembersReadable room members) (hother : Readable room other) :
    Readable room ((members.lookup name).getD other) := by
  cases hv : members.lookup name with
  | none => exact hother
  | some v => exact readable_of_lookup h hv

end Json

open Json

/-! ### Storable documents -/

/-- A document whose numbers can be written and whose other values could stand where
the record puts them: two levels deep, and those of elements three. -/
structure Document.IsStorable (d : Document Number) : Prop where
  name : Readable (maxDepth - 2) d.size.name
  width : d.size.width.isWritable = true
  height : d.size.height.isWritable = true
  elements : ∀ e ∈ d.elements, ∀ a ∈ e.kind.attributes, Readable (maxDepth - 3) (e.get a)
  gridSize : d.settings.gridSize.isWritable = true
  showGrid : Readable (maxDepth - 2) d.settings.showGrid
  showRulers : Readable (maxDepth - 2) d.settings.showRulers

/-- The members of an element's record have different names. -/
theorem Element.nodup_record (e : Element Number) : (e.record.map Prod.fst).Nodup := by
  have hkeys : (e.kind.attributes.map Attribute.key).Nodup := by
    cases e.kind <;> decide +kernel
  -- Leaving null fields out keeps the names different.
  have hsub : (((e.kind.attributes.map fun a => (a.key, e.get a)).filter
      fun (_, v) => v ≠ .null).map Prod.fst).Sublist (e.kind.attributes.map Attribute.key) := by
    have h := (List.filter_sublist (p := fun (m : String × Datum) => m.2 ≠ .null)
      (l := e.kind.attributes.map fun a => (a.key, e.get a))).map Prod.fst
    rwa [List.map_map] at h
  rw [record, List.map_cons, List.nodup_cons]
  refine ⟨fun hmem => ?_, hkeys.sublist hsub⟩
  obtain ⟨a, -, ha⟩ := List.mem_map.mp (hsub.subset hmem)
  exact a.key_ne_type ha

/-- The record of an element holds its type and its fields. -/
theorem Element.mem_record {e : Element Number} {m : String × Datum} (h : m ∈ e.record) :
    m.2 = Choice.datum e.kind ∨ ∃ a ∈ e.kind.attributes, m.2 = e.get a := by
  rcases List.mem_cons.mp h with rfl | h
  · exact .inl rfl
  · obtain ⟨a, ha, rfl⟩ := List.mem_map.mp (List.mem_filter.mp h).1
    exact .inr ⟨a, ha, rfl⟩

/-- The record of a storable document is a value that a text can stand for. -/
theorem Document.readable_record {d : Document Number} (h : d.IsStorable) :
    Readable maxDepth d.record := by
  have hsizeNames : ["name", "width", "height", "category"].Nodup := by decide
  have hsettingsNames : ["gridSize", "showGrid", "showRulers", "units"].Nodup := by decide
  have hnames : ["size", "elements", "settings"].Nodup := by decide
  -- A level for the document, one for each of its parts, and two more for an element.
  have hsize : Readable (maxDepth - 1) (.object d.size.record) := by
    refine ⟨by decide, hsizeNames, areMembersReadable_iff.mpr ?_⟩
    simp only [LabelSize.record, List.forall_mem_cons]
    exact ⟨h.name, h.width, h.height, trivial, List.forall_mem_nil _⟩
  have helements : Readable (maxDepth - 1)
      (.list (d.elements.map fun e => .object e.record)) := by
    refine ⟨by decide, areReadable_iff.mpr fun v hv => ?_⟩
    obtain ⟨e, he, rfl⟩ := List.mem_map.mp hv
    refine ⟨by decide, e.nodup_record, areMembersReadable_iff.mpr fun m hm => ?_⟩
    rcases Element.mem_record hm with hm | ⟨a, ha, hm⟩
    · rw [hm]
      trivial
    · rw [hm]
      exact h.elements e he a ha
  have hsettings : Readable (maxDepth - 1) (.object d.settings.record) := by
    refine ⟨by decide, hsettingsNames, areMembersReadable_iff.mpr ?_⟩
    simp only [Settings.record, List.forall_mem_cons]
    exact ⟨h.gridSize, h.showGrid, h.showRulers, trivial, List.forall_mem_nil _⟩
  refine ⟨by decide, hnames, areMembersReadable_iff.mpr ?_⟩
  simp only [List.forall_mem_cons]
  exact ⟨hsize, helements, hsettings, List.forall_mem_nil _⟩

/-! ### Documents that were read -/

/-- The derived extents of lines can be written. -/
def Document.HasWritableExtents (d : Document Number) : Prop :=
  ∀ e ∈ d.elements, e.kind = .line →
    e.frame.width.isWritable = true ∧ e.frame.height.isWritable = true

/-- The defaults of a kind can stand anywhere. -/
theorem Kind.readable_default (room : Nat) (kind : Kind) (a : Attribute) :
    Readable room (kind.default a) := by
  cases a <;> first | exact trivial | (cases kind <;> first | exact trivial | rfl)

/-- A field that is given comes from a member, or is a default. -/
theorem Element.readable_of_ofRecord {room : Nat} {v : Datum} {e : Element Number}
    (hv : Readable room v) (h : ofRecord v = .ok e) :
    ∀ a ∈ e.kind.inputs, Readable (room - 1) (e.get a) := by
  obtain ⟨members, rfl, hassemble⟩ := ofRecord_eq_ok h
  intro a ha
  rw [← (assemble_eq_ok.mp hassemble).2.2 a ha]
  exact readable_getD hv.2.2 (Kind.readable_default _ _ _)

/-- The numbers of a size that was read can be written, and its name is a text. -/
theorem LabelSize.storable_of_ofRecord {room : Nat} {v : Datum} {size : LabelSize Number}
    (hv : Readable room v) (h : ofRecord v = .ok size) (depth : Nat) :
    Readable depth size.name ∧ size.width.isWritable = true ∧ size.height.isWritable = true := by
  obtain ⟨-, members, rfl, hname, hwidth, hheight⟩ := ofRecord_eq_ok h
  refine ⟨?_, readable_of_lookup hv.2.2 hwidth, readable_of_lookup hv.2.2 hheight⟩
  rw [hname]
  trivial

/-- The values of settings that were read could stand where they stood. -/
theorem Settings.storable_of_ofRecord {room : Nat} {v : Datum} {settings : Settings Number}
    (hv : Readable room v) (h : ofRecord v = .ok settings) :
    settings.gridSize.isWritable = true ∧ Readable (room - 1) settings.showGrid ∧
      Readable (room - 1) settings.showRulers := by
  obtain ⟨-, rfl | ⟨members, rfl, hgrid, hshow, hrulers⟩⟩ := ofRecord_eq_ok h
  · exact ⟨rfl, trivial, trivial⟩
  · have hinitial : Readable (room - 1) (.num initial.gridSize) := rfl
    have hgridRead : Readable (room - 1) (.num settings.gridSize) := by
      rw [← hgrid]
      exact readable_getD hv.2.2 hinitial
    refine ⟨hgridRead, ?_, ?_⟩
    · rw [← hshow]
      exact readable_getD hv.2.2 trivial
    · rw [← hrulers]
      exact readable_getD hv.2.2 trivial

/-- A document that was read is storable if the extents of its lines can be written. -/
theorem Document.isStorable_of_ofRecord {v : Datum} {d : Document Number}
    (hv : Readable maxDepth v) (h : ofRecord v = .ok d) (hextents : d.HasWritableExtents) :
    d.IsStorable := by
  obtain ⟨members, entries, rfl, hentries, hsize, helements, hsettings, -⟩ := ofRecord_eq_ok h
  have hmembers : AreMembersReadable (maxDepth - 1) members := hv.2.2
  have hnull : Readable (maxDepth - 1) .null := trivial
  obtain ⟨hname, hwidth, hheight⟩ := LabelSize.storable_of_ofRecord
    (readable_getD hmembers hnull) hsize (maxDepth - 2)
  obtain ⟨hgrid, hshow, hrulers⟩ := Settings.storable_of_ofRecord
    (readable_getD hmembers hnull) hsettings
  refine ⟨hname, hwidth, hheight, fun e he a ha => ?_, hgrid, hshow, hrulers⟩
  obtain ⟨entry, hentry, hread⟩ := exists_of_mapM_eq_ok helements e he
  have hentries := readable_of_lookup hmembers hentries
  have hv := areReadable_iff.mp hentries.2 entry hentry
  -- Every field is a member that was read, or a default, but for the extent of a line.
  rcases Kind.mem_inputs_or ha with ha | ⟨hline, rfl | rfl⟩
  · exact Element.readable_of_ofRecord hv hread a ha
  · exact (hextents e he hline).1
  · exact (hextents e he hline).2

/-- A document whose record can be written has extents that can be written. -/
theorem Document.hasWritableExtents_of_isWritable {d : Document Number}
    (h : isWritable d.record = true) : d.HasWritableExtents := by
  intro e he _
  have helements : isWritable (.list (d.elements.map fun e => .object e.record)) = true := by
    simp only [record, isWritable, areMembersWritable, Bool.and_eq_true] at h
    exact h.2.1
  have hrecord := areWritable_iff.mp helements _ (List.mem_map.mpr ⟨e, he, rfl⟩)
  have hmembers := areMembersWritable_iff.mp hrecord
  -- A number is not null, so width and height stand in the record of every element.
  have field : ∀ a ∈ frameAttributes, e.get a ≠ .null → isWritable (e.get a) = true := by
    intro a ha hnull
    have hmem : (a.key, e.get a) ∈ e.record := by
      refine List.mem_cons_of_mem _ (List.mem_filter.mpr ⟨?_, by simpa using hnull⟩)
      exact List.mem_map.mpr ⟨a, List.mem_append_left _ ha, rfl⟩
    exact hmembers _ hmem
  exact ⟨field .width (by decide) (by simp [Element.get, frameAttributes, Frame.get]),
    field .height (by decide) (by simp [Element.get, frameAttributes, Frame.get])⟩

end LabelLayout
