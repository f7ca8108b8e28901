import LabelLayout.Geometry.Align
import LabelLayout.Proofs.Scalar.Reading

/-!
# `LabelLayout.Proofs.Geometry.Moved`: an element further on

Moves, alignment and distribution do one thing to an element: they take it to another
place. `Element.IsMoved` says which elements are one another so far further on, as a reading
of their coordinates has it, and `yields_translate` that a translation gives such an element.
The box around it is the box around the element, as far further on (`IsMoved.box_eq`).

Where equal values are equal scalars the moved element keeps its shape
(`IsMoved.keepsShape`): nothing but its origin has changed, and for a line its other end,
which lies from the origin as before.

A reading may cover the places of an element (`Element.IsPlaced`) and not its extents. Such an
element is moved like any other. Whether it has a box is another matter, for which it is enough
that its places are integers with a double (`Element.IsWhole`).
-/

set_option autoImplicit false

namespace LabelLayout

variable {α : Type} [Scalar α]

/-! ### Boxes -/

namespace Bounds

/-- The box of what a function makes of the edges. -/
def map {α β : Type} (f : α → β) (b : Bounds α) : Bounds β :=
  ⟨f b.left, f b.top, f b.right, f b.bottom⟩

/-- The box so far further on. -/
def shifted (dx dy : Rat) (b : Bounds Rat) : Bounds Rat :=
  ⟨b.left + dx, b.top + dy, b.right + dx, b.bottom + dy⟩

/-- A reading covers all four edges. -/
structure IsCovered (ρ : Scalar.Reading α) (b : Bounds α) : Prop where
  left : ρ.covers b.left
  top : ρ.covers b.top
  right : ρ.covers b.right
  bottom : ρ.covers b.bottom

end Bounds

namespace Element

/-- The extent of a line is the distances between its ends. -/
def Spans (e : Element α) : Prop :=
  ∀ line, e.body = .line line → e.frame.spanning line.x2 line.y2 = .ok e.frame

/-- A reading covers the place of an element: its origin, and the other end of a line. -/
structure IsPlaced (ρ : Scalar.Reading α) (e : Element α) : Prop where
  x : ρ.covers e.frame.x
  y : ρ.covers e.frame.y
  ends : ∀ line, e.body = .line line → ρ.covers line.x2 ∧ ρ.covers line.y2

/-- A reading covers the place of an element and its extent. -/
structure IsMeasured (ρ : Scalar.Reading α) (e : Element α) : Prop extends e.IsPlaced ρ where
  width : ρ.covers e.frame.width
  height : ρ.covers e.frame.height

/-- The box around an element: between the ends of a line, and from the origin of any other
element over its extent. -/
def box (ρ : Scalar.Reading α) (e : Element α) : Bounds Rat :=
  match e.body with
  | .line line => {
      left := min (ρ.value e.frame.x) (ρ.value line.x2)
      top := min (ρ.value e.frame.y) (ρ.value line.y2)
      right := max (ρ.value e.frame.x) (ρ.value line.x2)
      bottom := max (ρ.value e.frame.y) (ρ.value line.y2) }
  | _ => {
      left := ρ.value e.frame.x
      top := ρ.value e.frame.y
      right := ρ.value e.frame.x + ρ.value e.frame.width
      bottom := ρ.value e.frame.y + ρ.value e.frame.height }

end Element

variable {ρ : Scalar.Reading α} {e moved : Element α}

/-- The box of an element that is no line runs from its origin over its extent. -/
theorem Element.bounds_of_ne_line (hline : e.kind ≠ .line) :
    e.bounds = (do
      let right ← Scalar.add e.frame.x e.frame.width
      let bottom ← Scalar.add e.frame.y e.frame.height
      return ⟨e.frame.x, e.frame.y, right, bottom⟩) := by
  obtain ⟨frame, body⟩ := e
  cases body with
  | line line => exact absurd rfl hline
  | _ => rfl

theorem Element.bounds_box_eq_ok (hline : e.kind ≠ .line) {b : Bounds α} :
    e.bounds = .ok b ↔ ∃ right bottom, Scalar.add e.frame.x e.frame.width = .ok right ∧
      Scalar.add e.frame.y e.frame.height = .ok bottom ∧
      b = ⟨e.frame.x, e.frame.y, right, bottom⟩ := by
  simp only [bounds_of_ne_line hline, bind_eq_ok, pure_eq_ok]
  constructor
  · rintro ⟨right, hright, bottom, hbottom, rfl⟩
    exact ⟨right, bottom, hright, hbottom, rfl⟩
  · rintro ⟨right, bottom, hright, hbottom, rfl⟩
    exact ⟨right, hright, bottom, hbottom, rfl⟩

/-- Bounds are the box around an element. -/
theorem Element.yields_bounds (h : e.IsMeasured ρ) :
    Yields ρ.mayFail (fun b => b.IsCovered ρ ∧ b.map ρ.value = e.box ρ) e.bounds := by
  obtain ⟨frame, body⟩ := e
  by_cases hline : body.kind = .line
  · cases body with
    | line line =>
      obtain ⟨hx2, hy2⟩ := h.ends line rfl
      have hleft := ρ.min h.x hx2
      have htop := ρ.min h.y hy2
      have hright := ρ.max h.x hx2
      have hbottom := ρ.max h.y hy2
      refine yields_ok ⟨⟨hleft.1, htop.1, hright.1, hbottom.1⟩, ?_⟩
      simp only [Bounds.map, hleft.2, htop.2, hright.2, hbottom.2, box]
    | _ => cases hline
  · rw [bounds_of_ne_line (e := ⟨frame, body⟩) hline]
    refine (ρ.add h.x h.width).bind fun right hright => ?_
    refine (ρ.add h.y h.height).bind fun bottom hbottom => ?_
    refine yields_ok ⟨⟨h.x, h.y, hright.1, hbottom.1⟩, ?_⟩
    cases body with
    | line line => exact absurd rfl hline
    | _ => simp only [Bounds.map, hright.2, hbottom.2, box]

theorem yields_boxes {elements : List (Element α)} (h : ∀ e ∈ elements, e.IsMeasured ρ) :
    Yields ρ.mayFail
      (List.Forall₂ (fun e b => b.IsCovered ρ ∧ b.map ρ.value = e.box ρ) elements)
      (elements.mapM Element.bounds) :=
  yields_mapM fun e he => Element.yields_bounds (h e he)

/-! ### Moves -/

/-- The value of `b` is that of `a`, so much larger. -/
def Scalar.Reading.IsShifted (ρ : Scalar.Reading α) (d : Rat) (a b : α) : Prop :=
  ρ.covers b ∧ ρ.value b = ρ.value a + d

theorem Scalar.Reading.isShifted_zero {a : α} (h : ρ.covers a) : ρ.IsShifted 0 a a :=
  ⟨h, (add_zero _).symm⟩

theorem Scalar.Reading.IsShifted.trans {d d' : Rat} {a b c : α} (h : ρ.IsShifted d a b)
    (h' : ρ.IsShifted d' b c) : ρ.IsShifted (d + d') a c :=
  ⟨h'.1, by rw [h'.2, h.2, add_assoc]⟩

/-- Under a faithful reading a scalar is determined by how far it is shifted. -/
theorem Scalar.Reading.IsShifted.unique {d : Rat} {a b c : α} (h : ρ.IsShifted d a b)
    (hfaithful : ρ.IsFaithful) (h' : ρ.IsShifted d a c) : b = c :=
  hfaithful h.1 h'.1 (h.2.trans h'.2.symm)

theorem Scalar.Reading.IsShifted.eq {a b : α} (h : ρ.IsShifted 0 a b) (hfaithful : ρ.IsFaithful)
    (ha : ρ.covers a) : b = a :=
  h.unique hfaithful (ρ.isShifted_zero ha)

/-- Scalars that are shifted alike have the difference that they had. -/
theorem Scalar.Reading.sub_eq_of_isShifted (hfaithful : ρ.IsFaithful) (htotal : ¬ ρ.mayFail)
    {d : Rat} {a b c a' b' : α} (hsub : Scalar.sub b a = .ok c) (ha : ρ.covers a)
    (hb : ρ.covers b) (ha' : ρ.IsShifted d a a') (hb' : ρ.IsShifted d b b') :
    Scalar.sub b' a' = Scalar.sub b a := by
  obtain ⟨hc, hvalue⟩ := (ρ.sub hb ha).of_eq_ok hsub
  obtain ⟨c', hsub', hc', hvalue'⟩ := (ρ.sub hb'.1 ha'.1).exists_ok htotal
  rw [hsub, hsub', hfaithful hc' hc]
  rw [hvalue', hvalue, hb'.2, ha'.2, add_sub_add_right_eq_sub]

/-- The second box is the first one so far further on, as values have it. -/
structure Bounds.IsShifted (ρ : Scalar.Reading α) (dx dy : Rat) (b b' : Bounds α) : Prop where
  left : ρ.IsShifted dx b.left b'.left
  top : ρ.IsShifted dy b.top b'.top
  right : ρ.IsShifted dx b.right b'.right
  bottom : ρ.IsShifted dy b.bottom b'.bottom

section

variable {p q : Rat} {b b' : Bounds α}

/-- A box whose edges have the shifted values is shifted. -/
theorem Bounds.isShifted_of_map (hb' : b'.IsCovered ρ)
    (h : b'.map ρ.value = (b.map ρ.value).shifted p q) : b.IsShifted ρ p q b' where
  left := ⟨hb'.left, congrArg left h⟩
  top := ⟨hb'.top, congrArg top h⟩
  right := ⟨hb'.right, congrArg right h⟩
  bottom := ⟨hb'.bottom, congrArg bottom h⟩

/-- A shifted box is as wide and as high as it was. -/
theorem Bounds.IsShifted.width_eq (hfaithful : ρ.IsFaithful) (htotal : ¬ ρ.mayFail)
    (h : b.IsShifted ρ p q b') (hb : b.IsCovered ρ) : b'.width = b.width := by
  obtain ⟨w, hw, -⟩ := (ρ.sub hb.right hb.left).exists_ok htotal
  exact ρ.sub_eq_of_isShifted hfaithful htotal hw hb.left hb.right h.left h.right

theorem Bounds.IsShifted.height_eq (hfaithful : ρ.IsFaithful) (htotal : ¬ ρ.mayFail)
    (h : b.IsShifted ρ p q b') (hb : b.IsCovered ρ) : b'.height = b.height := by
  obtain ⟨v, hv, -⟩ := (ρ.sub hb.bottom hb.top).exists_ok htotal
  exact ρ.sub_eq_of_isShifted hfaithful htotal hv hb.top hb.bottom h.top h.bottom

end

namespace Element

/-- The second element is the first one at a place `(dx, dy)` further on, with an extent of
the same value. -/
inductive IsMoved (ρ : Scalar.Reading α) (dx dy : Rat) : Element α → Element α → Prop
  | box {frame : Frame α} {body : Body α} {x y : α} (hbody : body.kind ≠ .line)
      (hx : ρ.IsShifted dx frame.x x) (hy : ρ.IsShifted dy frame.y y) :
      IsMoved ρ dx dy ⟨frame, body⟩ ⟨{ frame with x, y }, body⟩
  | line {frame : Frame α} {line : LineBody α} {x y x2 y2 width height : α}
      (hx : ρ.IsShifted dx frame.x x) (hy : ρ.IsShifted dy frame.y y)
      (hx2 : ρ.IsShifted dx line.x2 x2) (hy2 : ρ.IsShifted dy line.y2 y2)
      (hwidth : ρ.IsShifted 0 frame.width width) (hheight : ρ.IsShifted 0 frame.height height) :
      IsMoved ρ dx dy ⟨frame, .line line⟩
        ⟨{ frame with x, y, width, height }, .line { line with x2, y2 }⟩

/-- A reading that covers the ends of a line covers its extent. -/
theorem Spans.extent {frame : Frame α} {line : LineBody α} (hspans : Spans ⟨frame, .line line⟩)
    (h : IsPlaced ρ ⟨frame, .line line⟩) :
    (ρ.covers frame.width ∧ ρ.value frame.width = |ρ.value line.x2 - ρ.value frame.x|) ∧
      ρ.covers frame.height ∧ ρ.value frame.height = |ρ.value line.y2 - ρ.value frame.y| := by
  obtain ⟨hx2, hy2⟩ := h.ends line rfl
  have hspanning := hspans line rfl
  simp only [Frame.spanning, bind_eq_ok, pure_eq_ok] at hspanning
  obtain ⟨width, hwidth, height, hheight, hframe⟩ := hspanning
  obtain ⟨hwcovers, hwvalue⟩ := (ρ.sub hx2 h.x).of_eq_ok hwidth
  obtain ⟨hhcovers, hhvalue⟩ := (ρ.sub hy2 h.y).of_eq_ok hheight
  have hw : Scalar.abs width = frame.width := congrArg Frame.width hframe
  have hh : Scalar.abs height = frame.height := congrArg Frame.height hframe
  rw [← hw, ← hh, ← hwvalue, ← hhvalue]
  exact ⟨ρ.abs hwcovers, ρ.abs hhcovers⟩

theorem isMoved_zero (h : e.IsPlaced ρ) (hspans : e.Spans) : IsMoved ρ 0 0 e e := by
  obtain ⟨frame, body⟩ := e
  by_cases hline : body.kind = .line
  · cases body with
    | line line =>
      obtain ⟨hx2, hy2⟩ := h.ends line rfl
      obtain ⟨⟨hwidth, -⟩, hheight, -⟩ := hspans.extent h
      exact .line (ρ.isShifted_zero h.x) (ρ.isShifted_zero h.y) (ρ.isShifted_zero hx2)
        (ρ.isShifted_zero hy2) (ρ.isShifted_zero hwidth) (ρ.isShifted_zero hheight)
    | _ => cases hline
  · exact .box hline (ρ.isShifted_zero h.x) (ρ.isShifted_zero h.y)

section

variable {dx dy : α}

/-- Frames of lines whose ends are shifted alike have extents of the same value. -/
theorem yields_spanning {frame : Frame α} {line : LineBody α}
    (hspans : Spans ⟨frame, .line line⟩) (h : IsPlaced ρ ⟨frame, .line line⟩) {p q : Rat}
    {x y x2 y2 : α} (hx : ρ.IsShifted p frame.x x) (hy : ρ.IsShifted q frame.y y)
    (hx2 : ρ.IsShifted p line.x2 x2) (hy2 : ρ.IsShifted q line.y2 y2) :
    Yields ρ.mayFail (fun spanned => ∃ width height, ρ.IsShifted 0 frame.width width ∧
        ρ.IsShifted 0 frame.height height ∧ spanned = { frame with x, y, width, height })
      (Frame.spanning { frame with x, y } x2 y2) := by
  obtain ⟨⟨-, hwidth⟩, -, hheight⟩ := hspans.extent h
  refine (ρ.sub hx2.1 hx.1).bind fun w hw => ?_
  refine (ρ.sub hy2.1 hy.1).bind fun v hv => ?_
  refine yields_ok ⟨Scalar.abs w, Scalar.abs v, ⟨(ρ.abs hw.1).1, ?_⟩, ⟨(ρ.abs hv.1).1, ?_⟩, rfl⟩
  · rw [(ρ.abs hw.1).2, hw.2, hx2.2, hx.2, add_sub_add_right_eq_sub, hwidth, add_zero]
  · rw [(ρ.abs hv.1).2, hv.2, hy2.2, hy.2, add_sub_add_right_eq_sub, hheight, add_zero]

/-- A shift moves an element. -/
theorem yields_shift (h : e.IsPlaced ρ) (hspans : e.Spans) (hdx : ρ.covers dx)
    (hdy : ρ.covers dy) :
    Yields ρ.mayFail (IsMoved ρ (ρ.value dx) (ρ.value dy) e) (e.shift dx dy) := by
  obtain ⟨frame, body⟩ := e
  refine (ρ.add h.x hdx).bind fun x hx => ?_
  refine (ρ.add h.y hdy).bind fun y hy => ?_
  by_cases hline : body.kind = .line
  · cases body with
    | line line =>
      obtain ⟨hx2, hy2⟩ := h.ends line rfl
      refine (ρ.add hx2 hdx).bind fun x2 hx2 => ?_
      refine (ρ.add hy2 hdy).bind fun y2 hy2 => ?_
      refine (yields_spanning hspans h hx hy hx2 hy2).bind ?_
      rintro _ ⟨width, height, hwidth, hheight, rfl⟩
      exact yields_ok (.line hx hy hx2 hy2 hwidth hheight)
    | _ => cases hline
  · cases body with
    | line line => exact absurd rfl hline
    | _ => exact yields_ok (.box hline hx hy)

/-- So does a translation, which leaves the element as it is where there is nowhere to go. -/
theorem yields_translate (h : e.IsPlaced ρ) (hspans : e.Spans) (hdx : ρ.covers dx)
    (hdy : ρ.covers dy) :
    Yields ρ.mayFail (IsMoved ρ (ρ.value dx) (ρ.value dy) e) (e.translate dx dy) := by
  rw [translate, ρ.eq hdx ρ.zero.1, ρ.eq hdy ρ.zero.1, ρ.zero.2]
  split
  · next hstay =>
    simp only [Bool.and_eq_true, decide_eq_true_eq] at hstay
    rw [hstay.1, hstay.2]
    exact yields_ok (isMoved_zero h hspans)
  · exact yields_shift h hspans hdx hdy

/-- A translation by nothing changes nothing. -/
theorem translate_eq_self (hdx : ρ.covers dx) (hdy : ρ.covers dy) (hx : ρ.value dx = 0)
    (hy : ρ.value dy = 0) (e : Element α) : e.translate dx dy = .ok e := by
  rw [translate, ρ.eq hdx ρ.zero.1, ρ.eq hdy ρ.zero.1, ρ.zero.2, hx, hy]
  rfl

end

variable {dx dy : Rat}

theorem IsMoved.isPlaced (h : IsMoved ρ dx dy e moved) : moved.IsPlaced ρ := by
  cases h with
  | box hbody hx hy =>
    refine ⟨hx.1, hy.1, ?_⟩
    rintro line rfl
    exact absurd rfl hbody
  | line hx hy hx2 hy2 =>
    refine ⟨hx.1, hy.1, ?_⟩
    rintro _ ⟨⟩
    exact ⟨hx2.1, hy2.1⟩

/-- The origin of a moved element is shifted. -/
theorem IsMoved.isShifted (h : IsMoved ρ dx dy e moved) :
    ρ.IsShifted dx e.frame.x moved.frame.x ∧ ρ.IsShifted dy e.frame.y moved.frame.y := by
  cases h with
  | box _ hx hy => exact ⟨hx, hy⟩
  | line hx hy => exact ⟨hx, hy⟩

theorem IsMoved.isMeasured (h : IsMoved ρ dx dy e moved) (he : e.IsMeasured ρ) :
    moved.IsMeasured ρ := by
  refine ⟨h.isPlaced, ?_, ?_⟩
  · cases h with
    | box => exact he.width
    | line _ _ _ _ hwidth _ => exact hwidth.1
  · cases h with
    | box => exact he.height
    | line _ _ _ _ _ hheight => exact hheight.1

theorem IsMoved.id_eq (h : IsMoved ρ dx dy e moved) : moved.id = e.id := by
  cases h <;> rfl

/-- A moved element is as free to move as it was. -/
theorem IsMoved.isLocked_eq (h : IsMoved ρ dx dy e moved) : moved.isLocked = e.isLocked := by
  cases h <;> rfl

/-- Two moves are one as far as both. -/
theorem IsMoved.trans {dx' dy' : Rat} {further : Element α} (h : IsMoved ρ dx dy e moved)
    (h' : IsMoved ρ dx' dy' moved further) : IsMoved ρ (dx + dx') (dy + dy') e further := by
  cases h with
  | box hbody hx hy =>
    cases h' with
    | box _ hx' hy' => exact .box hbody (hx.trans hx') (hy.trans hy')
    | line => exact absurd rfl hbody
  | line hx hy hx2 hy2 hwidth hheight =>
    cases h' with
    | box hbody => exact absurd rfl hbody
    | line hx' hy' hx2' hy2' hwidth' hheight' =>
      refine .line (hx.trans hx') (hy.trans hy') (hx2.trans hx2') (hy2.trans hy2') ?_ ?_
      · exact (add_zero (0 : Rat)) ▸ hwidth.trans hwidth'
      · exact (add_zero (0 : Rat)) ▸ hheight.trans hheight'

/-- Where values tell scalars apart, a move comes out at one element. -/
theorem IsMoved.unique (hfaithful : ρ.IsFaithful) {other : Element α}
    (h : IsMoved ρ dx dy e moved) (h' : IsMoved ρ dx dy e other) : moved = other := by
  cases h with
  | box hbody hx hy =>
    cases h' with
    | box _ hx' hy' => rw [hx.unique hfaithful hx', hy.unique hfaithful hy']
    | line => exact absurd rfl hbody
  | line hx hy hx2 hy2 hwidth hheight =>
    cases h' with
    | box hbody => exact absurd rfl hbody
    | line hx' hy' hx2' hy2' hwidth' hheight' =>
      rw [hx.unique hfaithful hx', hy.unique hfaithful hy', hx2.unique hfaithful hx2',
        hy2.unique hfaithful hy2', hwidth.unique hfaithful hwidth',
        hheight.unique hfaithful hheight']

/-- The box around a moved element is the one around the element, as far further on. -/
theorem IsMoved.box_eq (h : IsMoved ρ dx dy e moved) : moved.box ρ = (e.box ρ).shifted dx dy := by
  cases h with
  | @box frame body x y hbody hx hy =>
    cases body with
    | line line => exact absurd rfl hbody
    | _ =>
      simp only [Element.box, Bounds.shifted, hx.2, hy.2, Bounds.mk.injEq, true_and]
      exact ⟨add_right_comm _ _ _, add_right_comm _ _ _⟩
  | line hx hy hx2 hy2 =>
    simp only [Element.box, Bounds.shifted, hx.2, hy.2, hx2.2, hy2.2, min_add_add_right,
      max_add_add_right]

/-- Where no operation fails, both have a box. -/
theorem IsMoved.exists_bounds (htotal : ¬ ρ.mayFail) (h : IsMoved ρ dx dy e moved)
    (he : e.IsMeasured ρ) : ∃ b b', e.bounds = .ok b ∧ moved.bounds = .ok b' ∧ b.IsCovered ρ ∧
      b.IsShifted ρ dx dy b' := by
  obtain ⟨b, hb, hcovered, hbox⟩ := (yields_bounds he).exists_ok htotal
  obtain ⟨b', hb', hcovered', hbox'⟩ := (yields_bounds (h.isMeasured he)).exists_ok htotal
  rw [h.box_eq, ← hbox] at hbox'
  exact ⟨b, b', hb, hb', hcovered, Bounds.isShifted_of_map hcovered' hbox'⟩

/-- Where values tell scalars apart and no operation fails, the extent of a moved line is the
distances between its ends. -/
theorem IsMoved.spans (hfaithful : ρ.IsFaithful) (htotal : ¬ ρ.mayFail)
    (h : IsMoved ρ dx dy e moved) (he : e.IsPlaced ρ) (hspans : e.Spans) : moved.Spans := by
  cases h with
  | box hbody =>
    rintro line rfl
    exact absurd rfl hbody
  | line hx hy hx2 hy2 hwidth hheight =>
    rintro _ ⟨⟩
    obtain ⟨_, hspanned, width, height, hwidth', hheight', rfl⟩ :=
      (yields_spanning hspans he hx hy hx2 hy2).exists_ok htotal
    obtain rfl := hwidth.unique hfaithful hwidth'
    obtain rfl := hheight.unique hfaithful hheight'
    exact hspanned

/-! ### Shapes -/

/-- The second element is the first one at another place. It has the same extent and, if it
is a line, its other end lies from its origin as before; all else is the same. -/
def KeepsShape (e moved : Element α) : Prop :=
  moved.frame = { e.frame with x := moved.frame.x, y := moved.frame.y } ∧
    match e.body with
    | .line line => ∃ x2 y2, moved.body = .line { line with x2, y2 } ∧
        Scalar.sub x2 moved.frame.x = Scalar.sub line.x2 e.frame.x ∧
        Scalar.sub y2 moved.frame.y = Scalar.sub line.y2 e.frame.y
    | body => moved.body = body

/-- Where values tell scalars apart and no operation fails, a moved element keeps its shape. -/
theorem IsMoved.keepsShape (hfaithful : ρ.IsFaithful) (htotal : ¬ ρ.mayFail)
    (h : IsMoved ρ dx dy e moved) (he : e.IsPlaced ρ) (hspans : e.Spans) :
    e.KeepsShape moved := by
  cases h with
  | @box frame body x y hbody hx hy =>
    refine ⟨rfl, ?_⟩
    cases body with
    | line line => exact absurd rfl hbody
    | _ => rfl
  | line hx hy hx2 hy2 hwidth hheight =>
    obtain ⟨⟨hcw, -⟩, hch, -⟩ := hspans.extent he
    obtain ⟨hcx2, hcy2⟩ := he.ends _ rfl
    obtain ⟨w, hw, -⟩ := (ρ.sub hcx2 he.x).exists_ok htotal
    obtain ⟨v, hv, -⟩ := (ρ.sub hcy2 he.y).exists_ok htotal
    obtain rfl := hwidth.eq hfaithful hcw
    obtain rfl := hheight.eq hfaithful hch
    exact ⟨rfl, _, _, rfl, ρ.sub_eq_of_isShifted hfaithful htotal hw he.x hcx2 hx hx2,
      ρ.sub_eq_of_isShifted hfaithful htotal hv he.y hcy2 hy hy2⟩

end Element

/-! ### Slides -/

namespace Geometry

/-- The second element is the first one so far further along an axis. -/
def IsSlid (ρ : Scalar.Reading α) (horizontal : Bool) (delta : Rat) :
    Element α → Element α → Prop :=
  Element.IsMoved ρ (if horizontal then delta else 0) (if horizontal then 0 else delta)

/-- A slide takes an element along its axis. -/
theorem yields_slide (h : e.IsPlaced ρ) (hspans : e.Spans) {delta : α} (hdelta : ρ.covers delta)
    (horizontal : Bool) :
    Yields ρ.mayFail (IsSlid ρ horizontal (ρ.value delta) e) (slide horizontal e delta) := by
  obtain ⟨hzero, hvalue⟩ := ρ.zero
  cases horizontal with
  | true =>
    have hmoved := Element.yields_translate h hspans hdelta hzero
    rw [hvalue] at hmoved
    exact hmoved
  | false =>
    have hmoved := Element.yields_translate h hspans hzero hdelta
    rw [hvalue] at hmoved
    exact hmoved

/-- A slide by nothing changes nothing. -/
theorem slide_eq_self {delta : α} (hdelta : ρ.covers delta) (hvalue : ρ.value delta = 0)
    (horizontal : Bool) (e : Element α) : slide horizontal e delta = .ok e := by
  cases horizontal with
  | true => exact Element.translate_eq_self hdelta ρ.zero.1 hvalue ρ.zero.2 e
  | false => exact Element.translate_eq_self ρ.zero.1 hdelta ρ.zero.2 hvalue e

/-- What a slide along an axis leaves as it was whatever is rounded: the shape of the element, its
place across the axis, and the edges of the box around it there. -/
structure StaysAcross (horizontal : Bool) (e moved : Element α) : Prop where
  shape : e.KeepsShape moved
  across : if horizontal then moved.frame.y = e.frame.y else moved.frame.x = e.frame.x
  bounds : ∃ b b', e.bounds = .ok b ∧ moved.bounds = .ok b' ∧
    if horizontal then b'.top = b.top ∧ b'.bottom = b.bottom
    else b'.left = b.left ∧ b'.right = b.right

/-- What a slide along an axis leaves as it was: the shape of the element, its place across the
axis, and the extent of the box around it. -/
structure SlidesAlong (horizontal : Bool) (e moved : Element α) : Prop where
  shape : e.KeepsShape moved
  across : if horizontal then moved.frame.y = e.frame.y else moved.frame.x = e.frame.x
  bounds : ∃ b b', e.bounds = .ok b ∧ moved.bounds = .ok b' ∧ b'.width = b.width ∧
    b'.height = b.height ∧
    if horizontal then b'.top = b.top ∧ b'.bottom = b.bottom
    else b'.left = b.left ∧ b'.right = b.right

/-- An element that is slid has the edges across the axis that it had, as they are computed. -/
theorem IsSlid.staysAcross (hfaithful : ρ.IsFaithful) (htotal : ¬ ρ.mayFail) {horizontal : Bool}
    {delta : Rat} (h : IsSlid ρ horizontal delta e moved) (he : e.IsPlaced ρ) (hspans : e.Spans)
    {b b' : Bounds α} (hb : e.bounds = .ok b) (hb' : moved.bounds = .ok b') :
    StaysAcross horizontal e moved := by
  have hshape := Element.IsMoved.keepsShape hfaithful htotal h he hspans
  cases h with
  | @box frame body x y hbody hx hy =>
    obtain ⟨_, _, hright, hbottom, rfl⟩ :=
      (Element.bounds_box_eq_ok (e := ⟨frame, body⟩) hbody).mp hb
    obtain ⟨_, _, hright', hbottom', rfl⟩ :=
      (Element.bounds_box_eq_ok (e := ⟨{ frame with x, y }, body⟩) hbody).mp hb'
    cases horizontal with
    | true =>
      obtain rfl : y = frame.y := hy.eq hfaithful he.y
      exact ⟨hshape, rfl, _, _, hb, hb', rfl, Except.ok.inj (hbottom'.symm.trans hbottom)⟩
    | false =>
      obtain rfl : x = frame.x := hx.eq hfaithful he.x
      exact ⟨hshape, rfl, _, _, hb, hb', rfl, Except.ok.inj (hright'.symm.trans hright)⟩
  | @line frame line x y x2 y2 width height hx hy hx2 hy2 hwidth hheight =>
    obtain ⟨hcx2, hcy2⟩ := he.ends line rfl
    cases hb
    cases hb'
    cases horizontal with
    | true =>
      obtain rfl : y = frame.y := hy.eq hfaithful he.y
      obtain rfl : y2 = line.y2 := hy2.eq hfaithful hcy2
      exact ⟨hshape, rfl, _, _, rfl, rfl, rfl, rfl⟩
    | false =>
      obtain rfl : x = frame.x := hx.eq hfaithful he.x
      obtain rfl : x2 = line.x2 := hx2.eq hfaithful hcx2
      exact ⟨hshape, rfl, _, _, rfl, rfl, rfl, rfl⟩

theorem IsSlid.slidesAlong (hfaithful : ρ.IsFaithful) (htotal : ¬ ρ.mayFail) {horizontal : Bool}
    {delta : Rat} (h : IsSlid ρ horizontal delta e moved) (he : e.IsMeasured ρ)
    (hspans : e.Spans) : SlidesAlong horizontal e moved := by
  obtain ⟨b, b', hb, hb', hcovered, hshifted⟩ := Element.IsMoved.exists_bounds htotal h he
  have hstays := h.staysAcross hfaithful htotal he.toIsPlaced hspans hb hb'
  refine ⟨hstays.shape, hstays.across, b, b', hb, hb',
    hshifted.width_eq hfaithful htotal hcovered, hshifted.height_eq hfaithful htotal hcovered, ?_⟩
  obtain ⟨_, _, hb₁, hb₁', hedges⟩ := hstays.bounds
  cases hb.symm.trans hb₁
  cases hb'.symm.trans hb₁'
  exact hedges

end Geometry

/-! ### Whole coordinates -/

theorem Number.IsWhole.covers_integer {x : Number} (h : x.IsWhole) :
    Scalar.Reading.integer.covers x := by
  obtain ⟨n, rfl, -⟩ := h
  exact ⟨n, rfl⟩

namespace Element

open Scalar.Reading (integer isFaithful_integer)

variable {e moved : Element Number}

/-- The coordinates of an element are integers that are small enough to have doubles. -/
structure IsWhole (e : Element Number) : Prop where
  x : e.frame.x.IsWhole
  y : e.frame.y.IsWhole
  ends : ∀ line, e.body = .line line → line.x2.IsWhole ∧ line.y2.IsWhole

theorem IsWhole.isPlaced (h : e.IsWhole) : e.IsPlaced integer where
  x := h.x.covers_integer
  y := h.y.covers_integer
  ends line hline := (h.ends line hline).imp Number.IsWhole.covers_integer
    Number.IsWhole.covers_integer

/-- Any extent can be added to an origin that has doubles. -/
theorem exists_bounds_box {frame : Frame Number} {body : Body Number} (hbody : body.kind ≠ .line)
    (hx : frame.x.IsWhole) (hy : frame.y.IsWhole) : ∃ b, bounds ⟨frame, body⟩ = .ok b := by
  obtain ⟨right, hright⟩ := hx.exists_add frame.width
  obtain ⟨bottom, hbottom⟩ := hy.exists_add frame.height
  exact ⟨_, (bounds_box_eq_ok (e := ⟨frame, body⟩) hbody).mpr ⟨_, _, hright, hbottom, rfl⟩⟩

theorem IsWhole.exists_bounds (h : e.IsWhole) : ∃ b, e.bounds = .ok b := by
  obtain ⟨frame, body⟩ := e
  by_cases hline : body.kind = .line
  · cases body with
    | line line => exact ⟨_, rfl⟩
    | _ => cases hline
  · exact exists_bounds_box hline h.x h.y

/-- Bounds fail over a coordinate without a double only. -/
theorem failsWith_bounds (e : Element Number) : FailsWith (· = .tooLarge) e.bounds := by
  by_cases hline : e.kind = .line
  · obtain ⟨frame, body⟩ := e
    cases body with
    | line line => exact failsWith_pure _
    | _ => cases hline
  · rw [bounds_of_ne_line hline]
    exact (Number.failsWith_add _ _).bind fun _ => (Number.failsWith_add _ _).bind fun _ =>
      failsWith_pure _

/-- An element of whole coordinates is shifted, and translated, to whole coordinates. -/
theorem exists_translate_int (he : e.IsPlaced integer) (hspans : e.Spans) (a b : Int) :
    ∃ moved, e.translate (.int a) (.int b) = .ok moved ∧ e.shift (.int a) (.int b) = .ok moved ∧
      IsMoved integer a b e moved := by
  have hwhole (k : Int) : integer.covers (.int k) := ⟨k, rfl⟩
  have hvalue (k : Int) : integer.value (.int k) = k := Number.value_int k
  obtain ⟨moved, hmoved, h⟩ :=
    (yields_translate he hspans (hwhole a) (hwhole b)).exists_ok not_false
  obtain ⟨shifted, hshifted, h'⟩ :=
    (yields_shift he hspans (hwhole a) (hwhole b)).exists_ok not_false
  obtain rfl := h.unique isFaithful_integer h'
  rw [hvalue, hvalue] at h
  exact ⟨moved, hmoved, hshifted, h⟩

/-- So far further on there is one element only. -/
theorem IsMoved.translate_eq {a b : Int} (h : IsMoved integer a b e moved)
    (he : e.IsPlaced integer) (hspans : e.Spans) : e.translate (.int a) (.int b) = .ok moved := by
  obtain ⟨other, hother, -, h'⟩ := exists_translate_int he hspans a b
  rw [hother, h'.unique isFaithful_integer h]

end Element

end LabelLayout
