import LabelLayout.Document.Arrange
import LabelLayout.Proofs.Geometry.Hit
import Mathlib.Data.List.Nodup
import Mathlib.Data.List.Perm.Basic

/-!
# `LabelLayout.Proofs.Document.PaintOrder`: bringing to the front and sending to the back

Where no two elements share an id, the elements with one id are one element or none, and both
edits put it at an end of the others (`Document.bringToFront_eq`,
`Document.sendToBack_eq`). `Document.Restacks` says what the edits have in common: the
others keep their order, and the element with the id stays as it is.

`Document.topmostAt_restacked` is the main statement. What lies under a point is the element
that was brought to the front if it shows there, it is the one that was sent to the back only if
no other one shows there, and it is what it was where the element does not show. Only the last of
several such edits of one id counts.
-/

set_option autoImplicit false

namespace LabelLayout.Document

variable {α : Type} {d after : Document α} {id : String}

/-! ### Ids -/

/-- Elements of one document with one id are the same element. -/
theorem eq_of_id_eq (hids : d.ids.Nodup) {e o : Element α} (he : e ∈ d.elements)
    (ho : o ∈ d.elements) (h : e.id = o.id) : e = o :=
  List.inj_on_of_nodup_map hids he ho h

theorem find?_spec {e : Element α} (h : d.find? id = some e) : e ∈ d.elements ∧ e.id = id :=
  ⟨List.mem_of_find?_eq_some h, by simpa using List.find?_some h⟩

theorem find?_of_mem (hids : d.ids.Nodup) {e : Element α} (he : e ∈ d.elements) :
    d.find? e.id = some e := by
  cases hfind : d.find? e.id with
  | none =>
    have hnone := List.find?_eq_none.mp hfind e he
    simp at hnone
  | some o =>
    obtain ⟨ho, hid⟩ := find?_spec hfind
    rw [eq_of_id_eq hids ho he hid]

theorem find?_eq_some_iff (hids : d.ids.Nodup) {e : Element α} :
    d.find? id = some e ↔ e ∈ d.elements ∧ e.id = id :=
  ⟨find?_spec, fun ⟨he, hid⟩ => hid ▸ find?_of_mem hids he⟩

/-- The same elements in another order have ids of their own, too. -/
theorem nodup_of_perm (h : after.elements.Perm d.elements) (hids : d.ids.Nodup) :
    after.ids.Nodup :=
  (h.map Element.id).nodup_iff.mpr hids

/-- They are found as before. -/
theorem find?_of_perm (h : after.elements.Perm d.elements) (hids : d.ids.Nodup) (id : String) :
    after.find? id = d.find? id := by
  ext e
  rw [find?_eq_some_iff (nodup_of_perm h hids), find?_eq_some_iff hids, h.mem_iff]

/-- The elements with an id are one or none. -/
theorem filter_id (hids : d.ids.Nodup) (id : String) :
    d.elements.filter (fun o => o.id == id) = (d.find? id).toList := by
  obtain ⟨size, elements, settings⟩ := d
  simp only [find?, ids] at hids ⊢
  induction elements with
  | nil => rfl
  | cons e rest ih =>
    rw [List.map_cons, List.nodup_cons] at hids
    cases hid : e.id == id with
    | true =>
      -- The others have other ids.
      have hrest : ∀ o ∈ rest, ¬ (o.id == id) = true := fun o ho hoid => by
        rw [beq_iff_eq] at hid hoid
        exact hids.1 (hid.trans hoid.symm ▸ List.mem_map_of_mem ho)
      rw [List.filter_cons, List.find?_cons, hid, if_pos rfl, List.filter_eq_nil_iff.mpr hrest]
      rfl
    | false =>
      rw [List.filter_cons, List.find?_cons, hid, if_neg (by decide), ih hids.2]

/-! ### The paint order -/

/-- Where there is no element with an id, all are among those with other ids. -/
theorem filter_of_find?_eq_none (h : d.find? id = none) :
    d.elements.filter (fun o => o.id != id) = d.elements :=
  List.filter_eq_self.mpr (by simpa [find?] using h)

/-- The element with the id is put on top of the others. -/
theorem bringToFront_eq (hids : d.ids.Nodup) (id : String) :
    d.bringToFront id = { d with
      elements := d.elements.filter (fun o => o.id != id) ++
        d.elements.filter fun o => o.id == id } := by
  rw [filter_id hids, bringToFront]
  cases hfind : d.find? id with
  | some e => rfl
  | none => rw [filter_of_find?_eq_none hfind, Option.toList_none, List.append_nil]

/-- The element with the id is put below the others. -/
theorem sendToBack_eq (hids : d.ids.Nodup) (id : String) :
    d.sendToBack id = { d with
      elements := d.elements.filter (fun o => o.id == id) ++
        d.elements.filter fun o => o.id != id } := by
  rw [filter_id hids, sendToBack]
  cases hfind : d.find? id with
  | some e => rfl
  | none => rw [filter_of_find?_eq_none hfind, Option.toList_none, List.nil_append]

/-- The elements with other ids keep their order, and the one with the id stays as it is,
wherever it comes to lie. -/
structure Restacks (id : String) (before after : Document α) : Prop where
  size : after.size = before.size
  settings : after.settings = before.settings
  others : after.elements.filter (fun o => o.id != id) =
    before.elements.filter fun o => o.id != id
  own : after.elements.filter (fun o => o.id == id) = before.elements.filter fun o => o.id == id

/-- The elements are the same. -/
theorem Restacks.perm (h : d.Restacks id after) : after.elements.Perm d.elements := by
  have hsplit (elements : List (Element α)) : (elements.filter (fun o => o.id == id) ++
      elements.filter fun o => o.id != id).Perm elements :=
    List.filter_append_perm (fun o => o.id == id) elements
  -- Either list is split into the two parts that both have.
  refine (hsplit after.elements).symm.trans ?_
  rw [h.own, h.others]
  exact hsplit d.elements

theorem Restacks.nodup (h : d.Restacks id after) (hids : d.ids.Nodup) : after.ids.Nodup :=
  nodup_of_perm h.perm hids

theorem restacks_bringToFront (hids : d.ids.Nodup) (id : String) :
    d.Restacks id (d.bringToFront id) := by
  rw [bringToFront_eq hids]
  refine ⟨rfl, rfl, ?_, ?_⟩ <;> simp [List.filter_filter]

theorem restacks_sendToBack (hids : d.ids.Nodup) (id : String) :
    d.Restacks id (d.sendToBack id) := by
  rw [sendToBack_eq hids]
  refine ⟨rfl, rfl, ?_, ?_⟩ <;> simp [List.filter_filter]

/-- What was restacked before has no part in where the element ends up. -/
theorem Restacks.bringToFront_eq (h : d.Restacks id after) (hids : d.ids.Nodup) :
    after.bringToFront id = d.bringToFront id := by
  rw [Document.bringToFront_eq (h.nodup hids), Document.bringToFront_eq hids, h.others, h.own,
    h.size, h.settings]

theorem Restacks.sendToBack_eq (h : d.Restacks id after) (hids : d.ids.Nodup) :
    after.sendToBack id = d.sendToBack id := by
  rw [Document.sendToBack_eq (h.nodup hids), Document.sendToBack_eq hids, h.others, h.own,
    h.size, h.settings]

/-! ### Points -/

open LabelLayout.Geometry

section

variable [Scalar α] {x y : α} {e : Element α}

/-- Where the element does not show, what is found lies among the others. -/
theorem topmostAt_others (hids : d.ids.Nodup)
    (h : ∀ e, d.find? id = some e → e.showsAt x y = .ok false) :
    topmostAt x y (d.elements.filter fun o => o.id != id) = topmostAt x y d.elements := by
  refine topmostAt_filter fun o ho hid => h o ?_
  exact (find?_eq_some_iff hids).mpr ⟨ho, by simpa using hid⟩

theorem Restacks.topmostAt_eq (h : d.Restacks id after) (hids : d.ids.Nodup)
    (hshows : ∀ e, d.find? id = some e → e.showsAt x y = .ok false) :
    topmostAt x y after.elements = topmostAt x y d.elements := by
  have hafter : ∀ e, after.find? id = some e → e.showsAt x y = .ok false := fun e he =>
    hshows e (find?_of_perm h.perm hids id ▸ he)
  -- In either order the search is one among the others, which lie as they lay.
  rw [← topmostAt_others (h.nodup hids) hafter, h.others, topmostAt_others hids hshows]

/-- An element that shows is found when it lies on top. -/
theorem topmostAt_bringToFront (hfind : d.find? id = some e) (hshows : e.showsAt x y = .ok true) :
    topmostAt x y (d.bringToFront id).elements = .ok (some e) := by
  rw [bringToFront, hfind, topmostAt_eq_some]
  exact ⟨_, [], rfl, nofun, hshows⟩

/-- An element is found at the bottom if it shows and no other one does. -/
theorem topmostAt_sendToBack (hfind : d.find? id = some e) :
    topmostAt x y (d.sendToBack id).elements = .ok (some e) ↔
      e.showsAt x y = .ok true ∧ ∀ o ∈ d.elements, o.id ≠ id → o.showsAt x y = .ok false := by
  have hothers : (∀ o ∈ d.elements, o.id ≠ id → o.showsAt x y = .ok false) ↔
      ∀ o ∈ d.elements.filter (fun o => o.id != id), o.showsAt x y = .ok false := by
    simp
  rw [sendToBack, hfind, topmostAt_eq_some, hothers]
  constructor
  · rintro ⟨below, above, hsplit, habove, he⟩
    cases below with
    | nil =>
      cases hsplit
      exact ⟨he, habove⟩
    | cons first below =>
      -- It would lie among the others.
      obtain ⟨-, hsplit⟩ := List.cons.inj hsplit
      have hmem : e ∈ d.elements.filter fun o => o.id != id := hsplit ▸ by simp
      have hne := (List.mem_filter.mp hmem).2
      rw [(find?_spec hfind).2, bne_self_eq_false] at hne
      cases hne
  · rintro ⟨he, habove⟩
    exact ⟨[], _, rfl, habove, he⟩

/-- What bringing an element to the front and sending it to the back do to a document and to what
lies under its points.

The others keep their order. The element that was brought to the front is found where it is
visible and contains the point. The one that was sent to the back is found only if no other
visible element contains the point. Where it does not contain the point, or is hidden, neither
edit changes what is found. Either edit takes back what the two did to the element before. -/
theorem topmostAt_restacked (hids : d.ids.Nodup) (id : String) :
    (d.Restacks id (d.bringToFront id) ∧ d.Restacks id (d.sendToBack id)) ∧
    (∀ (e : Element α) (x y : α), d.find? id = some e → e.isVisible = true →
      e.contains x y = .ok true → topmostAt x y (d.bringToFront id).elements = .ok (some e)) ∧
    (∀ (e : Element α) (x y : α), topmostAt x y (d.sendToBack id).elements = .ok (some e) →
      e.id = id → ∀ o ∈ d.elements, o.id ≠ id → o.isVisible = true →
      o.contains x y = .ok false) ∧
    (∀ x y : α, (∀ e, d.find? id = some e → e.isVisible = true → e.contains x y = .ok false) →
      topmostAt x y (d.bringToFront id).elements = topmostAt x y d.elements ∧
      topmostAt x y (d.sendToBack id).elements = topmostAt x y d.elements) ∧
    ((d.bringToFront id).bringToFront id = d.bringToFront id ∧
      (d.sendToBack id).sendToBack id = d.sendToBack id ∧
      (d.sendToBack id).bringToFront id = d.bringToFront id ∧
      (d.bringToFront id).sendToBack id = d.sendToBack id) := by
  have hfront := restacks_bringToFront hids id
  have hback := restacks_sendToBack hids id
  refine ⟨⟨hfront, hback⟩, ?_, ?_, ?_, ?_⟩
  · intro e x y hfind hvisible hcontains
    exact topmostAt_bringToFront hfind (Element.showsAt_eq_true.mpr ⟨hvisible, hcontains⟩)
  · intro e x y hfound hid o ho hoid
    obtain ⟨below, above, hsplit, -, -⟩ := topmostAt_eq_some.mp hfound
    have he : e ∈ (d.sendToBack id).elements := hsplit ▸ by simp
    have hfind : d.find? id = some e := hid ▸ find?_of_mem hids (hback.perm.mem_iff.mp he)
    exact Element.showsAt_eq_false.mp (((topmostAt_sendToBack hfind).mp hfound).2 o ho hoid)
  · intro x y h
    have hshows (e) (hfind : d.find? id = some e) : e.showsAt x y = .ok false :=
      Element.showsAt_eq_false.mpr (h e hfind)
    exact ⟨hfront.topmostAt_eq hids hshows, hback.topmostAt_eq hids hshows⟩
  · exact ⟨hfront.bringToFront_eq hids, hback.sendToBack_eq hids, hback.bringToFront_eq hids,
      hfront.sendToBack_eq hids⟩

end

/-- Two pictures, one over a corner of the other, and a hidden one over both. -/
def overlapping : Document Number where
  size := ⟨.str "4×2", .int 4, .int 2, .custom⟩
  elements := [
    ⟨⟨"under", .int 10, .int 10, .int 40, .int 40, .int 0, .bool false, .bool true⟩,
      .image ⟨"/under.png", .contain⟩⟩,
    ⟨⟨"over", .int 30, .int 30, .int 40, .int 40, .int 0, .bool false, .bool true⟩,
      .image ⟨"/over.png", .contain⟩⟩,
    ⟨⟨"hidden", .int 0, .int 0, .int 100, .int 100, .int 0, .bool false, .bool false⟩,
      .image ⟨"/hidden.png", .contain⟩⟩]
  settings := ⟨.int 5, .bool false, .bool true, .inches⟩

/-- In the corner that both pictures cover the lower one is found once it lies in front. The
upper one is no longer found there once it lies at the back, and beside the lower picture what
is found stays the same. -/
theorem topmostAt_restacked_overlapping :
    ∃ lower upper, overlapping.find? "under" = some lower ∧
      overlapping.find? "over" = some upper ∧
      topmostAt (.int 40) (.int 40) overlapping.elements = .ok (some upper) ∧
      topmostAt (.int 40) (.int 40) (overlapping.bringToFront "under").elements =
        .ok (some lower) ∧
      topmostAt (.int 40) (.int 40) (overlapping.sendToBack "over").elements ≠ .ok (some upper) ∧
      topmostAt (.int 60) (.int 60) (overlapping.bringToFront "under").elements =
        .ok (some upper) := by
  have hids : overlapping.ids.Nodup := by decide
  obtain ⟨-, hunder, -, haside, -⟩ := topmostAt_restacked hids "under"
  obtain ⟨-, -, hover, -, -⟩ := topmostAt_restacked hids "over"
  refine ⟨_, _, rfl, rfl, by decide, hunder _ _ _ rfl (by decide) (by decide), fun h => ?_, ?_⟩
  · have hcontains := hover _ _ _ h rfl _ List.mem_cons_self (by decide) (by decide)
    revert hcontains
    decide
  · rw [(haside _ _ fun e he _ => ?_).1]
    · decide
    · cases he
      decide

end LabelLayout.Document
