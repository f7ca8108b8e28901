import LabelLayout.Proofs.Except
import LabelLayout.Request

/-!
# `LabelLayout.Proofs.Geometry.Hit`: which element lies under a point

Whether an element contains a point is what is answered to a request with numbers
(`Request.hit_num`, as `Request.topmostAt_num` is for the search). The search for the element
under a point goes through the paint order from the top and stops at the first element that
shows there (`Geometry.firstAt_eq_findM?`). So an element that does not show at the point has no
part in the search (`Geometry.topmostAt_filter`), and what is found is an element that shows
there with none above it that does (`Geometry.topmostAt_eq_some`).
-/

set_option autoImplicit false

namespace LabelLayout

variable {α : Type} [Scalar α]

/-- Whether the box around an element contains a point. -/
def Element.contains (e : Element α) (x y : α) : Except Fault Bool := do
  return (← e.bounds).contains x y

/-- Whether an element shows at a point: it is visible and contains it. -/
def Element.showsAt (x y : α) (e : Element α) : Except Fault Bool :=
  if e.isVisible then e.contains x y else .ok false

/-- A point that is requested with numbers is this one. -/
theorem Request.hit_num (e : Element Number) (x y : Number) :
    Request.hit (some e) (.num x) (.num y) = liftM (e.contains x y) := by
  simp only [Request.hit, Request.contains, Element.present, Element.contains, ok_bind]
  cases e.bounds with
  | error f => rfl
  | ok b =>
    show (if b.spansX x then pure (b.spansY y) else pure false : Except Error Bool) =
      .ok (b.spansX x && b.spansY y)
    cases b.spansX x <;> rfl

variable {e : Element α} {x y : α} {elements : List (Element α)}

theorem Element.showsAt_eq_true :
    e.showsAt x y = .ok true ↔ e.isVisible = true ∧ e.contains x y = .ok true := by
  rw [showsAt]
  cases e.isVisible <;> simp

theorem Element.showsAt_eq_false :
    e.showsAt x y = .ok false ↔ (e.isVisible = true → e.contains x y = .ok false) := by
  rw [showsAt]
  cases e.isVisible <;> simp

namespace Geometry

/-- The search is for the first element that shows. -/
theorem firstAt_eq_findM? : firstAt x y elements = elements.findM? (Element.showsAt x y) := by
  induction elements with
  | nil => rfl
  | cons e rest ih =>
    rw [firstAt, List.findM?, ih, Element.showsAt, Element.contains]
    cases e.isVisible with
    | false => rfl
    | true =>
      cases e.bounds with
      | error f => rfl
      | ok b =>
        simp only [if_true, ok_bind]
        cases b.contains x y <;> rfl

/-- What does not show has no part in the search. -/
theorem topmostAt_filter {p : Element α → Bool}
    (h : ∀ e ∈ elements, p e = false → e.showsAt x y = .ok false) :
    topmostAt x y (elements.filter p) = topmostAt x y elements := by
  rw [topmostAt, topmostAt, firstAt_eq_findM?, firstAt_eq_findM?, ← List.filter_reverse]
  exact findM?_filter fun e he => h e (List.mem_reverse.mp he)

/-- The element under a point shows there, and none above it does. -/
theorem topmostAt_eq_some :
    topmostAt x y elements = .ok (some e) ↔ ∃ below above, elements = below ++ e :: above ∧
      (∀ o ∈ above, o.showsAt x y = .ok false) ∧ e.showsAt x y = .ok true := by
  rw [topmostAt, firstAt_eq_findM?, findM?_eq_some]
  constructor
  · rintro ⟨before, after, hsplit, hbefore, he⟩
    refine ⟨after.reverse, before.reverse, ?_, fun o ho => hbefore o (List.mem_reverse.mp ho), he⟩
    rw [← List.reverse_reverse elements, hsplit]
    simp
  · rintro ⟨below, above, rfl, habove, he⟩
    refine ⟨above.reverse, below.reverse, ?_, fun o ho => habove o (List.mem_reverse.mp ho), he⟩
    simp

end Geometry

end LabelLayout
