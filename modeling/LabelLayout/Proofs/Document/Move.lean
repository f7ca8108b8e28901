import LabelLayout.Proofs.Document.Locked
import LabelLayout.Proofs.Geometry.Moved

/-!
# `LabelLayout.Proofs.Document.Move`: moves by whole numbers

A move adds up where the origin of an element comes to lie, brings that to the grid if the
grid shows, and translates the element by the difference. On whole coordinates sums and
differences are exact, so an element arrives where it was to lie (`Document.exists_moveTo`):
on the grid where that shows (`Geometry.snap_int`), and otherwise as far from its old place as
the move says, so that two moves are one as far as both. `Document.moveBy_lands` is both.
-/

set_option autoImplicit false

namespace LabelLayout

open Scalar.Reading Element

/-- An integer snaps to a multiple of the grid. -/
theorem Geometry.snap_int {n g : Int} {x : Number} (h : snap (.int n) (.int g) = .ok x) :
    ∃ line : Int, x = .int (line * g) := by
  simp only [snap] at h
  split at h
  · cases h
  · obtain ⟨line, -, hmul⟩ := bind_eq_ok.mp h
    exact ⟨line, (Except.ok.inj hmul).symm⟩

namespace Document

/-- An element in the place of the one with its id. -/
theorem replaceElements_singleton {α : Type} (d : Document α) {e moved : Element α}
    (hid : moved.id = e.id) :
    d.replaceElements [moved] =
      { d with elements := d.elements.map fun o => if o.id = e.id then moved else o } := by
  simp only [replaceElements, List.reverse_singleton, List.find?_singleton, hid]
  congr 1
  refine List.map_congr_left fun o _ => ?_
  by_cases ho : o.id = e.id
  · simp [ho]
  · simp [ho, Ne.symm ho]

/-- Of two elements with one id, put in its place one after the other, the second stays. -/
theorem replaceElements_replaceElements {α : Type} (d : Document α) {moved further : Element α}
    (hid : further.id = moved.id) :
    (d.replaceElements [moved]).replaceElements [further] = d.replaceElements [further] := by
  simp only [replaceElements, List.reverse_singleton, List.find?_singleton, List.map_map, hid]
  congr 1
  refine List.map_congr_left fun o _ => ?_
  by_cases ho : moved.id = o.id
  · simp [ho]
  · simp [ho]

/-- What is unknown or locked stays. -/
theorem moveBy_eq_self {α : Type} [Scalar α] {d : Document α} {id : String}
    (h : ∀ e, d.find? id = some e → e.isLocked = true) (dx dy : Value α) :
    d.moveBy id dx dy = .ok d := by
  rw [moveBy]
  cases hfind : d.find? id with
  | none => rfl
  | some e => simp only [h e hfind, if_true]

variable {d : Document Number} {e : Element Number}

/-- An element of whole coordinates is moved to where whole coordinates settle. -/
theorem exists_moveTo (he : e.IsPlaced integer) (hspans : e.Spans) {x y : Number} {m n p q : Int}
    (hm : e.frame.x = .int m) (hn : e.frame.y = .int n) (hx : d.settle x = .ok (.int p))
    (hy : d.settle y = .ok (.int q)) :
    ∃ moved, d.moveTo e x y = .ok (d.replaceElements [moved]) ∧
      IsMoved integer (p - m : Int) (q - n : Int) e moved := by
  obtain ⟨moved, hmoved, -, h⟩ := exists_translate_int he hspans (p - m) (q - n)
  refine ⟨moved, ?_, h⟩
  rw [moveTo, hx, ok_bind, hy, ok_bind, hm, hn]
  show (e.translate (.int (p - m)) (.int (q - n)) >>= _) = _
  rw [hmoved]
  rfl

/-- With a grid of whole numbers shown, an element that is free moves to a point of the grid. -/
theorem isMoved_of_moveBy (hids : d.ids.Nodup) (hgrid : d.settings.showGrid.truthy = true)
    {g : Int} (hg : d.settings.gridSize = .int g) (he : e ∈ d.elements)
    (hfree : e.isLocked = false) (hplaced : e.IsPlaced integer) (hspans : e.Spans) {dx dy : Int}
    {after : Document Number}
    (hmove : d.moveBy e.id (.num (.int dx)) (.num (.int dy)) = .ok after) :
    ∃ moved, (∃ m : Int, moved.frame.x = .int (m * g)) ∧ (∃ n : Int, moved.frame.y = .int (n * g)) ∧
      (∃ shiftx shifty : Rat, IsMoved integer shiftx shifty e moved) ∧
      after = d.replaceElements [moved] := by
  obtain ⟨m, hm⟩ := hplaced.x
  obtain ⟨n, hn⟩ := hplaced.y
  have hsettle (k : Int) : d.settle (.int k) = Geometry.snap (.int k) (.int g) := by
    rw [settle, hgrid, hg]
    rfl
  rw [moveBy_of_mem hids he hfree, hm, hn] at hmove
  replace hmove : d.moveTo e (.int (m + dx)) (.int (n + dy)) = .ok after := hmove
  -- That the move comes to an end shows that both coordinates have settled.
  obtain ⟨x, hx, hrest⟩ := bind_eq_ok.mp hmove
  obtain ⟨y, hy, -⟩ := bind_eq_ok.mp hrest
  obtain ⟨p, rfl⟩ := Geometry.snap_int ((hsettle _).symm.trans hx)
  obtain ⟨q, rfl⟩ := Geometry.snap_int ((hsettle _).symm.trans hy)
  obtain ⟨moved, hmoveTo, hmoved⟩ := exists_moveTo hplaced hspans hm hn hx hy
  obtain ⟨hshiftx, hshifty⟩ := hmoved.isShifted
  rw [hmoveTo] at hmove
  refine ⟨moved, ⟨p, ?_⟩, ⟨q, ?_⟩, ⟨_, _, hmoved⟩, (Except.ok.inj hmove).symm⟩
  · refine hshiftx.unique isFaithful_integer ⟨⟨_, rfl⟩, ?_⟩
    simp [integer, hm]
  · refine hshifty.unique isFaithful_integer ⟨⟨_, rfl⟩, ?_⟩
    simp [integer, hn]

/-- With the grid hidden, an element that is free moves as far as the move says. -/
theorem exists_moveBy (hids : d.ids.Nodup) (hgrid : d.settings.showGrid.truthy = false)
    (he : e ∈ d.elements) (hfree : e.isLocked = false) (hplaced : e.IsPlaced integer)
    (hspans : e.Spans) (dx dy : Int) :
    ∃ moved, d.moveBy e.id (.num (.int dx)) (.num (.int dy)) = .ok (d.replaceElements [moved]) ∧
      IsMoved integer dx dy e moved := by
  obtain ⟨m, hm⟩ := hplaced.x
  obtain ⟨n, hn⟩ := hplaced.y
  have hsettle (k : Int) : d.settle (.int k) = .ok (.int k) := by rw [settle, hgrid]; rfl
  obtain ⟨moved, hmove, hmoved⟩ :=
    exists_moveTo hplaced hspans hm hn (hsettle (m + dx)) (hsettle (n + dy))
  refine ⟨moved, ?_, ?_⟩
  · rw [moveBy_of_mem hids he hfree, hm, hn]
    exact hmove
  · rwa [add_sub_cancel_left, add_sub_cancel_left] at hmoved

/-- With the grid hidden, two moves of an element are one as far as both. -/
theorem exists_moveBy_moveBy (hids : d.ids.Nodup) (hgrid : d.settings.showGrid.truthy = false)
    (he : e ∈ d.elements) (hfree : e.isLocked = false) (hplaced : e.IsPlaced integer)
    (hspans : e.Spans) (dx dy dx' dy' : Int) :
    ∃ between after, d.moveBy e.id (.num (.int dx)) (.num (.int dy)) = .ok between ∧
      between.moveBy e.id (.num (.int dx')) (.num (.int dy')) = .ok after ∧
      d.moveBy e.id (.num (.int (dx + dx'))) (.num (.int (dy + dy'))) = .ok after := by
  obtain ⟨moved, hmove, hmoved⟩ := exists_moveBy hids hgrid he hfree hplaced hspans dx dy
  obtain ⟨direct, hdirect, hdirectly⟩ :=
    exists_moveBy hids hgrid he hfree hplaced hspans (dx + dx') (dy + dy')
  -- The element that moved stands in the place of the first, free to move on.
  have hmem : moved ∈ (d.replaceElements [moved]).elements := by
    rw [replaceElements_singleton d hmoved.id_eq]
    exact List.mem_map.mpr ⟨e, he, if_pos rfl⟩
  obtain ⟨further, hmove', hfurther⟩ := exists_moveBy (d := d.replaceElements [moved])
    ((ids_replaceElements d [moved]).symm ▸ hids) hgrid hmem (hmoved.isLocked_eq.trans hfree)
    hmoved.isPlaced (hmoved.spans isFaithful_integer id hplaced hspans) dx' dy'
  have hsame : further = direct := by
    refine (hmoved.trans hfurther).unique isFaithful_integer ?_
    exact_mod_cast hdirectly
  refine ⟨_, _, hmove, hmoved.id_eq ▸ hmove', ?_⟩
  rw [hdirect, hsame, replaceElements_replaceElements d (hsame ▸ hfurther.id_eq)]

/-- A move of a valid document by whole numbers lands where it is to land. With a grid of whole
numbers shown, the origin of an element of whole coordinates, free to move, comes to lie on the
grid; the element keeps its shape, and the rest of the document stays as it is. With the grid
hidden, two moves are one as far as both, for a locked element and an unknown one, too. -/
theorem moveBy_lands (hd : d.IsValid) :
    (d.settings.showGrid.truthy = true → ∀ g : Int, d.settings.gridSize = .int g →
      ∀ e ∈ d.elements, e.isLocked = false → e.IsPlaced integer →
      ∀ (dx dy : Int) (after : Document Number),
        d.moveBy e.id (.num (.int dx)) (.num (.int dy)) = .ok after →
        ∃ (moved : Element Number) (m n : Int), moved.frame.x = .int (m * g) ∧
          moved.frame.y = .int (n * g) ∧ e.KeepsShape moved ∧
          after = { d with
            elements := d.elements.map fun o => if o.id = e.id then moved else o }) ∧
    (d.settings.showGrid.truthy = false →
      ∀ id, (∀ e ∈ d.elements, e.id = id → e.isLocked = false → e.IsPlaced integer) →
      ∀ dx dy dx' dy' : Int, ∃ between after,
        d.moveBy id (.num (.int dx)) (.num (.int dy)) = .ok between ∧
        between.moveBy id (.num (.int dx')) (.num (.int dy')) = .ok after ∧
        d.moveBy id (.num (.int (dx + dx'))) (.num (.int (dy + dy'))) = .ok after) := by
  constructor
  · intro hgrid g hg e he hfree hplaced dx dy after hmove
    have hspans := (hd.elements e he).spans
    obtain ⟨moved, ⟨m, hx⟩, ⟨n, hy⟩, ⟨_, _, hmoved⟩, hafter⟩ :=
      isMoved_of_moveBy hd.ids hgrid hg he hfree hplaced hspans hmove
    refine ⟨moved, m, n, hx, hy, ?_, hafter.trans (replaceElements_singleton d hmoved.id_eq)⟩
    exact hmoved.keepsShape isFaithful_integer id hplaced hspans
  · intro hgrid id hplaced dx dy dx' dy'
    by_cases hstays : ∀ e, d.find? id = some e → e.isLocked = true
    · have hsame := moveBy_eq_self hstays
      exact ⟨d, d, hsame _ _, hsame _ _, hsame _ _⟩
    · obtain ⟨e, hnot⟩ := not_forall.mp hstays
      obtain ⟨hfind, hlocked⟩ := Classical.not_imp.mp hnot
      obtain ⟨he, rfl⟩ := find?_spec hfind
      have hfree : e.isLocked = false := by simpa using hlocked
      exact exists_moveBy_moveBy hd.ids hgrid he hfree (hplaced e he rfl hfree)
        (hd.elements e he).spans dx dy dx' dy'

/-- A rectangle and a line that runs up to the left, over a grid of five. -/
def griddedSample (showGrid : Bool) : Document Number where
  size := LabelSize.initial
  elements := [
    ⟨⟨"frame", .int 13, .int 4, .int 30, .int 20, .int 0, .bool true, .bool true⟩,
      .shape ⟨.rectangle, "transparent", "#000000", .int 2, .int 0⟩⟩,
    ⟨⟨"rule", .int 45, .int 61, .int 25, .int 50, .int 0, .null, .bool true⟩,
      .line {
        x2 := .int 20, y2 := .int 11, stroke := "#000000", strokeWidth := .int 2
        strokeStyle := .solid }⟩]
  settings := ⟨.int 5, .bool showGrid, .bool true, .inches⟩

theorem isValid_griddedSample (showGrid : Bool) : (griddedSample showGrid).IsValid where
  size := isValid_initial.size
  elements := by
    simp only [griddedSample, List.forall_mem_cons]
    refine ⟨⟨by decide, fun line h => ?_⟩, ⟨by decide, fun line h => ?_⟩, List.forall_mem_nil _⟩
    · cases h
    · cases h
      rfl
  ids := by cases showGrid <;> decide
  settings := by show (Number.int 5).le (.int 0) = false; decide +kernel

/-- The line lands on the grid; and with the grid hidden, on its way across it may rest. -/
theorem moveBy_lands_griddedSample :
    (griddedSample true).IsValid ∧ (griddedSample false).IsValid ∧
    (∃ after moved, ∃ m n : Int,
      (griddedSample true).moveBy "rule" (.num (.int 4)) (.num (.int (-3))) = .ok after ∧
      moved.frame.x = .int (m * 5) ∧ moved.frame.y = .int (n * 5) ∧
      after = { griddedSample true with
        elements := (griddedSample true).elements.map fun o =>
          if o.id = "rule" then moved else o }) ∧
    ∃ between after,
      (griddedSample false).moveBy "rule" (.num (.int 4)) (.num (.int (-3))) = .ok between ∧
      between.moveBy "rule" (.num (.int (-9))) (.num (.int 8)) = .ok after ∧
      (griddedSample false).moveBy "rule" (.num (.int (4 + -9))) (.num (.int (-3 + 8))) =
        .ok after := by
  have hplaced : ∀ showGrid, ∀ e ∈ (griddedSample showGrid).elements, e.IsPlaced integer := by
    intro showGrid e he
    simp only [griddedSample, List.mem_cons, List.not_mem_nil, or_false] at he
    rcases he with rfl | rfl
    all_goals
      refine ⟨⟨_, rfl⟩, ⟨_, rfl⟩, fun line hline => ?_⟩
      cases hline
    exact ⟨⟨_, rfl⟩, ⟨_, rfl⟩⟩
  obtain ⟨after, hafter⟩ : ∃ after, (griddedSample true).moveBy "rule" (.num (.int 4))
      (.num (.int (-3))) = .ok after := exists_of_isOk (by decide +kernel)
  have hrule := List.mem_of_getElem? (l := (griddedSample true).elements) (i := 1) rfl
  obtain ⟨moved, m, n, hx, hy, -, hdocument⟩ := (moveBy_lands (isValid_griddedSample true)).1 rfl 5
    rfl _ hrule rfl (hplaced true _ hrule) 4 (-3) after hafter
  exact ⟨isValid_griddedSample true, isValid_griddedSample false,
    ⟨after, moved, m, n, hafter, hx, hy, hdocument⟩,
    (moveBy_lands (isValid_griddedSample false)).2 rfl "rule"
      (fun e he _ _ => hplaced false e he) 4 (-3) (-9) 8⟩

end Document

end LabelLayout
