import LabelLayout.Design.Record
import LabelLayout.Proofs.Element.Assemble

/-!
# `LabelLayout.Proofs.Document.Valid`: documents that pass every check

A document is valid when its size, its elements and its settings pass the checks of
their own fields and its elements have different ids. `LabelSize.check_eq_ok`,
`Settings.check_eq_ok` and `Document.make_eq_ok` say that each check admits exactly
what is valid, and leaves it as it is.
-/

set_option autoImplicit false

namespace LabelLayout

/-! ### Sizes and settings -/

/-- Neither dimension is zero or negative. -/
def LabelSize.IsValid (size : LabelSize Number) : Prop :=
  size.width.le (.int 0) = false ∧ size.height.le (.int 0) = false

/-- The grid is not zero or negative. -/
def Settings.IsValid (settings : Settings Number) : Prop :=
  settings.gridSize.le (.int 0) = false

theorem Check.number_eq_ok {field : String} {v : Datum} {x : Number} :
    Check.number field v = .ok x ↔ v = .num x := by
  cases v <;> simp [Check.number]

/-- A size passes its check exactly when it is valid, and as it is. -/
theorem LabelSize.check_eq_ok {name width height category : Datum} {size : LabelSize Number} :
    LabelSize.check name width height category = .ok size ↔
      size.IsValid ∧ name = size.name ∧ width = .num size.width ∧ height = .num size.height ∧
        category = Choice.datum size.category := by
  obtain ⟨n, w, h, c⟩ := size
  simp only [check, bind_eq_ok, Check.number_eq_ok, guard_eq_ok, Check.choice_eq_ok, pure_eq_ok,
    Bool.or_eq_false_iff, mk.injEq]
  constructor
  · rintro ⟨_, hw, _, hh, hpos, _, hc, rfl, rfl, rfl, rfl⟩
    exact ⟨hpos, rfl, hw, hh, hc⟩
  · rintro ⟨hpos, rfl, hw, hh, hc⟩
    exact ⟨_, hw, _, hh, hpos, _, hc, rfl, rfl, rfl, rfl⟩

/-- Settings pass their check exactly when they are valid, and as they are. -/
theorem Settings.check_eq_ok {gridSize showGrid showRulers units : Datum}
    {settings : Settings Number} :
    Settings.check gridSize showGrid showRulers units = .ok settings ↔
      settings.IsValid ∧ gridSize = .num settings.gridSize ∧ showGrid = settings.showGrid ∧
        showRulers = settings.showRulers ∧ units = Choice.datum settings.units := by
  obtain ⟨g, sg, sr, u⟩ := settings
  simp only [check, bind_eq_ok, Check.number_eq_ok, guard_eq_ok, Check.choice_eq_ok, pure_eq_ok,
    mk.injEq]
  constructor
  · rintro ⟨_, hg, hpos, _, hu, rfl, rfl, rfl, rfl⟩
    exact ⟨hpos, hg, rfl, rfl, hu⟩
  · rintro ⟨hpos, hg, rfl, rfl, hu⟩
    exact ⟨_, hg, hpos, _, hu, rfl, rfl, rfl, rfl⟩

/-! ### Documents -/

/-- A document that every check lets pass. -/
structure Document.IsValid (d : Document Number) : Prop where
  size : d.size.IsValid
  elements : ∀ e ∈ d.elements, e.IsValid
  ids : d.ids.Nodup
  settings : d.settings.IsValid

/-- No item is repeated exactly when all items are different. -/
theorem firstRepeated?_eq_none {ids : List String} : firstRepeated? ids = none ↔ ids.Nodup := by
  -- For any ids that have been seen: the rest repeats neither itself nor them.
  have general : ∀ (rest seen : List String), firstRepeated?.go seen rest = none ↔
      rest.Nodup ∧ ∀ id ∈ rest, id ∉ seen := by
    intro rest
    induction rest with
    | nil => intro seen; simp [firstRepeated?.go]
    | cons id rest ih =>
      intro seen
      rw [firstRepeated?.go, List.nodup_cons, List.forall_mem_cons]
      by_cases hseen : id ∈ seen
      · simp [hseen]
      · rw [if_neg (by simp [hseen]), ih]
        constructor
        · rintro ⟨hnodup, hrest⟩
          refine ⟨⟨fun hid => hrest id hid List.mem_cons_self, hnodup⟩, hseen, ?_⟩
          exact fun other hother hmem => hrest other hother (List.mem_cons_of_mem _ hmem)
        · rintro ⟨⟨hid, hnodup⟩, -, hrest⟩
          refine ⟨hnodup, fun other hother hmem => ?_⟩
          rcases List.mem_cons.mp hmem with rfl | hmem
          · exact hid hother
          · exact hrest other hother hmem
  rw [firstRepeated?, general]
  simp

/-- A document is made of elements with different ids, and of no others. -/
theorem Document.make_eq_ok {size : LabelSize Number} {elements : List (Element Number)}
    {settings : Settings Number} {d : Document Number} :
    Document.make size elements settings = .ok d ↔
      (elements.map Element.id).Nodup ∧ ⟨size, elements, settings⟩ = d := by
  rw [← firstRepeated?_eq_none, make]
  cases firstRepeated? (elements.map Element.id) with
  | none => simp
  | some id => simp

/-- A document whose parts all pass the checks that they are made with, as they are, and
in which every line keeps the distances between its ends. -/
structure Document.PassesChecks (d : Document Number) : Prop where
  ids : d.ids.Nodup
  id_ne_empty : ∀ e ∈ d.elements, e.id ≠ ""
  elements : ∀ e ∈ d.elements, Element.assemble e.kind e.get = .ok e
  width : ∀ e ∈ d.elements, ∀ line, e.body = .line line →
    ∃ dx, Number.sub line.x2 e.frame.x = .ok dx ∧ e.frame.width = dx.abs
  height : ∀ e ∈ d.elements, ∀ line, e.body = .line line →
    ∃ dy, Number.sub line.y2 e.frame.y = .ok dy ∧ e.frame.height = dy.abs
  size : LabelSize.check d.size.name (.num d.size.width) (.num d.size.height)
    (Choice.datum d.size.category) = .ok d.size
  settings : Settings.check (.num d.settings.gridSize) d.settings.showGrid
    d.settings.showRulers (Choice.datum d.settings.units) = .ok d.settings

/-- The extent of a line in a valid element is the distances between its ends. -/
theorem Element.IsValid.extent {e : Element Number} (h : e.IsValid) {line : LineBody Number}
    (hline : e.body = .line line) :
    (∃ dx, Number.sub line.x2 e.frame.x = .ok dx ∧ e.frame.width = dx.abs) ∧
      ∃ dy, Number.sub line.y2 e.frame.y = .ok dy ∧ e.frame.height = dy.abs := by
  obtain ⟨⟨dx, hdx, hwidth⟩, dy, hdy, hheight⟩ := Frame.spanning_eq_ok.mp (h.spans line hline)
  exact ⟨⟨dx, hdx, hwidth.symm⟩, dy, hdy, hheight.symm⟩

/-- Every part of a valid document passes the check that it is made with. -/
theorem Document.IsValid.passesChecks {d : Document Number} (h : d.IsValid) :
    d.PassesChecks where
  ids := h.ids
  id_ne_empty := fun e he => (h.elements e he).id_ne_empty
  elements := fun e he => Element.isValid_iff_assemble.mp (h.elements e he)
  width := fun e he _ hline => ((h.elements e he).extent hline).1
  height := fun e he _ hline => ((h.elements e he).extent hline).2
  size := LabelSize.check_eq_ok.mpr ⟨h.size, rfl, rfl, rfl, rfl⟩
  settings := Settings.check_eq_ok.mpr ⟨h.settings, rfl, rfl, rfl, rfl⟩

/-- An empty document is valid. -/
theorem Document.isValid_initial : Document.initial.IsValid where
  size := ⟨by decide +kernel, by decide +kernel⟩
  elements := fun e he => absurd he List.not_mem_nil
  ids := List.nodup_nil
  settings := by show Number.le _ _ = false; decide +kernel

end LabelLayout
