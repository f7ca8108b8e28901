import LabelLayout.Proofs.Geometry.Distribute
import LabelLayout.Proofs.Scalar.Unrounded

/-!
# `LabelLayout.Proofs.Geometry.Selection`: the box around a distributed selection

Distributed elements keep the first of all leading edges and the last of all trailing ones,
but where they overlap the gap is negative, and what is between the first and the last may be
taken out of the box that the selection had. How far is a matter of the extents: an element
starts behind the room of those before it and ends in front of the room of those after it
(`Geometry.Spreads.placed_eq`), and room that is negative lies outside.

`Geometry.selectionBounds_distribute` states this of runs of the numbers of a design that do
not round: the box around the selection stays exactly if no room is negative, which holds
where the gap is not. Such a run adds every extent to an integer without a loss, and that is all
that has to be known of an extent (`isMeasured_unrounded`). `Geometry.not_agrees_stacked` shows a
selection that leaves its box.
-/

set_option autoImplicit false

namespace LabelLayout

variable {α : Type} [Scalar α] {ρ : Scalar.Reading α}

/-! ### The box around a selection -/

namespace Bounds

/-- The box has the outermost edges of some boxes. -/
def IsAround (boxes : List (Bounds Rat)) (b : Bounds Rat) : Prop :=
  ∀ direction, (boxes.map (lead direction)).min? = some (b.lead direction) ∧
    (boxes.map (trail direction)).max? = some (b.trail direction)

/-- Both boxes have the same edges, as numbers. -/
def agrees (a b : Bounds α) : Bool :=
  Scalar.eq a.left b.left && Scalar.eq a.top b.top && Scalar.eq a.right b.right &&
    Scalar.eq a.bottom b.bottom

theorem agrees_iff {a b : Bounds α} (ha : a.IsCovered ρ) (hb : b.IsCovered ρ) :
    a.agrees b = true ↔ a.map ρ.value = b.map ρ.value := by
  simp only [agrees, ρ.eq ha.left hb.left, ρ.eq ha.top hb.top, ρ.eq ha.right hb.right,
    ρ.eq ha.bottom hb.bottom, Bool.and_eq_true, decide_eq_true_eq, map, mk.injEq, and_assoc]

/-- Boxes that have the same edges along both directions are the same. -/
theorem eq_iff_forall_direction {a b : Bounds Rat} :
    a = b ↔ ∀ direction, a.lead direction = b.lead direction ∧
      a.trail direction = b.trail direction := by
  constructor
  · rintro rfl direction
    exact ⟨rfl, rfl⟩
  · intro h
    obtain ⟨hleft, hright⟩ := h .horizontal
    obtain ⟨htop, hbottom⟩ := h .vertical
    obtain ⟨left, top, right, bottom⟩ := a
    obtain rfl : left = b.left := hleft
    obtain rfl : top = b.top := htop
    obtain rfl : right = b.right := hright
    obtain rfl : bottom = b.bottom := hbottom
    rfl

theorem isAround_union {first : Bounds α} {rest : List (Bounds α)}
    (h : ∀ b ∈ first :: rest, b.IsCovered ρ) :
    (first.union rest).IsCovered ρ ∧
      IsAround ((first :: rest).map (Bounds.map ρ.value)) ((first.union rest).map ρ.value) := by
  have hmin (edge : Bounds α → α) (hedge : ∀ b ∈ first :: rest, ρ.covers (edge b)) :=
    ρ.minimum (List.forall_mem_map.mpr hedge : ∀ a ∈ edge first :: rest.map edge, ρ.covers a)
  have hmax (edge : Bounds α → α) (hedge : ∀ b ∈ first :: rest, ρ.covers (edge b)) :=
    ρ.maximum (List.forall_mem_map.mpr hedge : ∀ a ∈ edge first :: rest.map edge, ρ.covers a)
  obtain ⟨hleft, hminleft⟩ := hmin left fun b hb => (h b hb).left
  obtain ⟨htop, hmintop⟩ := hmin top fun b hb => (h b hb).top
  obtain ⟨hright, hmaxright⟩ := hmax right fun b hb => (h b hb).right
  obtain ⟨hbottom, hmaxbottom⟩ := hmax bottom fun b hb => (h b hb).bottom
  refine ⟨⟨hleft, htop, hright, hbottom⟩, fun direction => ?_⟩
  rw [← List.map_cons, List.map_map] at hminleft hmintop hmaxright hmaxbottom
  rw [List.map_map, List.map_map]
  cases direction with
  | horizontal => exact ⟨hminleft, hmaxright⟩
  | vertical => exact ⟨hmintop, hmaxbottom⟩

end Bounds

namespace Geometry

variable {elements : List (Element α)} {direction : Direction}

/-- The box around elements is around their boxes. -/
theorem yields_selectionBounds (hne : elements ≠ []) (helements : ∀ e ∈ elements, e.IsMeasured ρ) :
    Yields ρ.mayFail (fun found => ∃ b, found = some b ∧ b.IsCovered ρ ∧
        Bounds.IsAround (elements.map (Element.box ρ)) (b.map ρ.value))
      (selectionBounds elements) := by
  refine (yields_boxes helements).bind fun boxes hboxes => ?_
  have hmap : boxes.map (Bounds.map ρ.value) = elements.map (Element.box ρ) :=
    map_eq_of_forall₂ (hboxes.imp fun _ _ h => h.2)
  cases boxes with
  | nil =>
    cases hboxes
    exact absurd rfl hne
  | cons first rest =>
    have hcovered : ∀ b ∈ first :: rest, b.IsCovered ρ := fun b hb => by
      obtain ⟨e, -, h, -⟩ := exists_of_forall₂ hboxes.flip b hb
      exact h
    obtain ⟨hunion, haround⟩ := Bounds.isAround_union hcovered
    rw [hmap] at haround
    exact yields_ok ⟨_, rfl, hunion, haround⟩

/-- Elements with boxes have a box around them, if there are any. -/
theorem exists_selectionBounds {boxes : List (Bounds α)}
    (h : elements.mapM Element.bounds = .ok boxes) :
    ∃ found, selectionBounds elements = .ok found := by
  rw [selectionBounds, h]
  cases boxes <;> exact ⟨_, rfl⟩

/-- Elements that are distributed have boxes. -/
theorem exists_boxes_of_distribute {result : List (Element α)} (hcount : 3 ≤ elements.length)
    (h : distribute elements direction = .ok result) :
    ∃ boxes, elements.mapM Element.bounds = .ok boxes := by
  rw [distribute, if_neg (by omega)] at h
  obtain ⟨boxes, hboxes, -⟩ := bind_eq_ok.mp h
  exact ⟨boxes, hboxes⟩

/-! ### Room -/

/-- Wherever extents are cut out, those before it and those after it have room. -/
def HaveRoom (gap : Rat) (extents : List Rat) : Prop :=
  ∀ before x after, extents = before ++ x :: after → 0 ≤ room gap before ∧ 0 ≤ room gap after

theorem haveRoom_map {β : Type} {gap : Rat} {items : List β} {extent : β → Rat} :
    HaveRoom gap (items.map extent) ↔ ∀ before b after, items = before ++ b :: after →
      0 ≤ room gap (before.map extent) ∧ 0 ≤ room gap (after.map extent) := by
  constructor
  · rintro h before b after rfl
    exact h _ _ _ (by rw [List.map_append, List.map_cons])
  · intro h before x after hsplit
    obtain ⟨first, rest, rfl, rfl, hrest⟩ := List.map_eq_append_iff.mp hsplit
    obtain ⟨b, last, rfl, -, rfl⟩ := List.map_eq_cons_iff.mp hrest
    exact h first b last rfl

/-- What is not negative has room at a gap that is not negative. -/
theorem haveRoom_of_nonneg {gap : Rat} {extents : List Rat} (hgap : 0 ≤ gap)
    (h : ∀ x ∈ extents, 0 ≤ x) : HaveRoom gap extents := by
  have hroom (xs : List Rat) (hxs : ∀ x ∈ xs, 0 ≤ x) : 0 ≤ room gap xs :=
    add_nonneg (List.sum_nonneg hxs) (mul_nonneg (Nat.cast_nonneg _) hgap)
  rintro before x after rfl
  rw [List.forall_mem_append, List.forall_mem_cons] at h
  exact ⟨hroom before h.1, hroom after h.2.2⟩

/-- So have boxes in the order of their leading edges, if none of them reaches less than nothing
far. -/
theorem haveRoom_stably {gap : Rat} {boxes : List (Bounds Rat)} (hgap : 0 ≤ gap)
    (h : ∀ b ∈ boxes, 0 ≤ b.reach direction) :
    HaveRoom gap ((stably (Bounds.lead direction) boxes).map fun p => p.1.reach direction) := by
  refine haveRoom_of_nonneg hgap (List.forall_mem_map.mpr fun p hp => h p.1 ?_)
  exact List.fst_mem_of_mem_zipIdx ((isStable_stably _ _).perm.mem_iff.mp hp)

section

variable {boxes placed : List (Bounds Rat)} {start finish gap : Rat} {δ : Nat → Rat}
  {around around' : Bounds Rat}

theorem mem_placed_iff (direction : Direction) (hlength : boxes.length = placed.length)
    {b : Bounds Rat} : b ∈ placed ↔ ∃ p ∈ ordered direction boxes placed, p.1.2 = b := by
  have hperm := (isStable_ordered direction boxes placed).perm
  have hmap : ((ordered direction boxes placed).map fun p => p.1.2).Perm placed := by
    refine (hperm.map _).trans (.of_eq ?_)
    show (boxes.zip placed).zipIdx.map (Prod.snd ∘ Prod.fst) = _
    rw [← List.map_map, List.zipIdx_map_fst, List.map_snd_zip hlength.ge]
  rw [← hmap.mem_iff, List.mem_map]

/-- The span is that of the box around the boxes. -/
theorem Spreads.span_eq (h : Spreads (boxes.map (Bounds.along direction)) start finish gap δ)
    (haround : Bounds.IsAround boxes around) :
    around.lead direction = start ∧ around.trail direction = finish := by
  have hmin := h.min_lead
  have hmax := h.max_trail
  rw [List.map_map] at hmin hmax
  exact ⟨Option.some.inj ((haround direction).1.symm.trans hmin),
    Option.some.inj ((haround direction).2.symm.trans hmax)⟩

theorem Spreads.gap_eq_reach (h : Spreads (boxes.map (Bounds.along direction)) start finish gap δ)
    (haround : Bounds.IsAround boxes around) :
    gap = (around.reach direction - (boxes.map (Bounds.reach direction)).sum) /
      (boxes.length - 1) := by
  obtain ⟨hstart, hfinish⟩ := h.span_eq haround
  have hgap := h.gap_eq
  rw [List.map_map, List.length_map] at hgap
  rw [Bounds.reach, hstart, hfinish]
  exact hgap

/-- Placed boxes keep the span exactly if their extents have room. -/
theorem Spreads.span_eq_iff (h : Spreads (boxes.map (Bounds.along direction)) start finish gap δ)
    (hcount : 2 ≤ boxes.length) (hplaced : IsPlacedBy direction δ boxes placed)
    (haround : Bounds.IsAround boxes around) (haround' : Bounds.IsAround placed around') :
    around'.lead direction = around.lead direction ∧
        around'.trail direction = around.trail direction ↔
      HaveRoom gap ((ordered direction boxes placed).map fun p => p.1.1.reach direction) := by
  obtain ⟨hstart, hfinish⟩ := h.span_eq haround
  obtain ⟨hmin, hmax⟩ := haround' direction
  rw [List.min?_eq_some_iff, List.forall_mem_map] at hmin
  rw [List.max?_eq_some_iff, List.forall_mem_map] at hmax
  have hmem (p) (hp : p ∈ ordered direction boxes placed) : p.1.2 ∈ placed :=
    (mem_placed_iff direction hplaced.length_eq).mpr ⟨p, hp, rfl⟩
  rw [hstart, hfinish, haveRoom_map]
  constructor
  · rintro ⟨hlead, htrail⟩ before p after hsplit
    obtain ⟨hplead, hptrail, -⟩ := h.placed_eq hcount hplaced hsplit
    have hp := hmem p (by simp [hsplit])
    have hmin := hmin.2 _ hp
    have hmax := hmax.2 _ hp
    constructor <;> linarith
  · intro hroom
    -- No box is placed outside, and the first and the last are at the ends of the span.
    have hwithin (b) (hb : b ∈ placed) : start ≤ b.lead direction ∧ b.trail direction ≤ finish := by
      obtain ⟨p, hp, rfl⟩ := (mem_placed_iff direction hplaced.length_eq).mp hb
      obtain ⟨before, after, hsplit⟩ := List.append_of_mem hp
      obtain ⟨hplead, hptrail, -⟩ := h.placed_eq hcount hplaced hsplit
      obtain ⟨hbefore, hafter⟩ := hroom before p after hsplit
      constructor <;> linarith
    obtain ⟨hfirst, hlast⟩ := h.ends_eq hcount hplaced
    obtain ⟨p, hp, hplead⟩ := Option.map_eq_some_iff.mp hfirst
    obtain ⟨q, hq, hqtrail⟩ := Option.map_eq_some_iff.mp hlast
    obtain ⟨b, hb, hblead⟩ := List.mem_map.mp hmin.1
    obtain ⟨c, hc, hctrail⟩ := List.mem_map.mp hmax.1
    have hpmin := hmin.2 _ (hmem p (List.mem_of_head? hp))
    have hqmax := hmax.2 _ (hmem q (List.mem_of_getLast? hq))
    have hbwithin := (hwithin b hb).1
    have hcwithin := (hwithin c hc).2
    constructor <;> linarith

end

/-! ### Distributed selections -/

section

variable {result : List (Element α)} {δ : Nat → Rat} {around around' : Bounds Rat}

/-- Across the direction the box around slid elements stays. -/
theorem isAround_across {other : Direction} (hother : other ≠ direction)
    (hslid : IsSlidBy ρ direction δ elements result)
    (haround : Bounds.IsAround (elements.map (Element.box ρ)) around)
    (haround' : Bounds.IsAround (result.map (Element.box ρ)) around') :
    around'.lead other = around.lead other ∧ around'.trail other = around.trail other := by
  have hstays : List.Forall₂ (fun e moved => (moved.box ρ).lead other = (e.box ρ).lead other ∧
      (moved.box ρ).trail other = (e.box ρ).trail other) elements result :=
    forall₂_of_zipIdx (hslid.imp fun p moved ⟨_, h⟩ => by
      rw [Element.IsMoved.box_eq h]
      cases direction <;> cases other
      · exact absurd rfl hother
      · exact ⟨add_zero _, add_zero _⟩
      · exact ⟨add_zero _, add_zero _⟩
      · exact absurd rfl hother)
  obtain ⟨hmin, hmax⟩ := haround other
  obtain ⟨hmin', hmax'⟩ := haround' other
  rw [List.map_map] at hmin hmax hmin' hmax'
  have hleads := map_eq_of_forall₂ (hstays.imp fun _ _ h => h.1)
  have htrails := map_eq_of_forall₂ (hstays.imp fun _ _ h => h.2)
  exact ⟨Option.some.inj (hmin'.symm.trans ((congrArg List.min? hleads).trans hmin)),
    Option.some.inj (hmax'.symm.trans ((congrArg List.max? htrails).trans hmax))⟩

/-- The box around distributed elements is the one around the elements exactly if the extents
have room. -/
theorem around_eq_iff {start finish gap : Rat} (hcount : 2 ≤ elements.length)
    (hspreads : Spreads ((elements.map (Element.box ρ)).map (Bounds.along direction)) start finish
      gap δ)
    (hslid : IsSlidBy ρ direction δ elements result)
    (haround : Bounds.IsAround (elements.map (Element.box ρ)) around)
    (haround' : Bounds.IsAround (result.map (Element.box ρ)) around') :
    around' = around ↔ HaveRoom gap
      ((stably (Bounds.lead direction) (elements.map (Element.box ρ))).map fun p =>
        p.1.reach direction) := by
  have hplaced := hslid.isPlacedBy
  have hordered := map_ordered (Bounds.lead direction) id (fun _ => rfl) hplaced.length_eq
  rw [List.map_id] at hordered
  rw [← hordered, List.map_map]
  refine Iff.trans ?_ (hspreads.span_eq_iff (by rwa [List.length_map]) hplaced haround haround')
  rw [Bounds.eq_iff_forall_direction]
  refine ⟨fun h => h direction, fun h other => ?_⟩
  by_cases hother : other = direction
  · rw [hother]
    exact h
  · exact isAround_across hother hslid haround haround'

/-- A distribution leaves the box around elements as it is exactly if their extents have room at
the gap that is an equal share of what they leave of the box. -/
theorem around_distribute {after : Bounds α} (hdivides : ρ.Divides) (hcount : 3 ≤ elements.length)
    (helements : ∀ e ∈ elements, e.IsMeasured ρ ∧ e.Spans)
    (hdistribute : distribute elements direction = .ok result)
    (hselection : selectionBounds result = .ok (some after))
    (haround : Bounds.IsAround (elements.map (Element.box ρ)) around) :
    after.IsCovered ρ ∧ ∃ gap,
      gap = (around.reach direction -
        ((elements.map (Element.box ρ)).map (Bounds.reach direction)).sum) /
          (elements.length - 1) ∧
      (after.map ρ.value = around ↔ HaveRoom gap
        ((stably (Bounds.lead direction) (elements.map (Element.box ρ))).map fun p =>
          p.1.reach direction)) := by
  obtain ⟨_, _, gap, δ, hspreads, hslid⟩ :=
    (yields_distribute hdivides hcount helements direction).of_eq_ok hdistribute
  have hresult : ∀ moved ∈ result, moved.IsMeasured ρ := by
    intro moved hmoved
    obtain ⟨p, -, he, hslide⟩ := exists_of_forall₂ hslid.flip moved hmoved
    exact Element.IsMoved.isMeasured hslide (helements p.1 he).1
  have hne : result ≠ [] := by
    rintro rfl
    have hlength := hslid.length_eq
    rw [List.length_zipIdx, List.length_nil] at hlength
    omega
  obtain ⟨_, ⟨⟩, hcovered, haround'⟩ :=
    (yields_selectionBounds hne hresult).of_eq_ok hselection
  have hgap := hspreads.gap_eq_reach haround
  rw [List.length_map] at hgap
  exact ⟨hcovered, gap, hgap, around_eq_iff (by omega) hspreads hslid haround haround'⟩

end

/-! ### Runs that do not round -/

section

open Scalar

/-- Integers are subtracted without rounding. -/
theorem sub_unrounded_int (m n : Int) :
    @Scalar.sub Number unrounded (.int m) (.int n) = .ok (.int (m - n)) := by
  refine Number.exactly_eq_ok.mpr ⟨rfl, ⟨_, rfl⟩, ?_⟩
  simp

/-- Whole coordinates and their extents are covered where nothing rounds. -/
theorem covers_unrounded {a : Number} (h : Reading.integer.covers a) :
    @Reading.covers Number unrounded Reading.unrounded a := by
  obtain ⟨n, rfl⟩ := h
  exact ⟨_, rfl⟩

/-- A whole number plus another one is finite only if that one is. -/
theorem exists_units?_of_add {a b c : Number} {k : Int} (h : a.add b = .ok c)
    (hc : c.units? = some k) : ∃ m, b.units? = some m := by
  cases b with
  | int n => exact ⟨_, rfl⟩
  | float y =>
    rw [Number.add_float] at h
    obtain ⟨x, -, h⟩ := bind_eq_ok.mp h
    cases h
    obtain ⟨_, n, -, hn, -⟩ := Binary64.units?_add_eq_some.mp hc
    exact ⟨n, hn⟩

/-- An element of whole coordinates that has a box where nothing rounds is measured there. -/
theorem isMeasured_unrounded {e : Element Number} (h : e.IsPlaced Reading.integer)
    (hspans : e.Spans) {b : Bounds Number} (hb : @Element.bounds Number unrounded e = .ok b) :
    @Element.IsMeasured Number unrounded Reading.unrounded e := by
  have hends (line) (hline : e.body = .line line) :=
    And.imp covers_unrounded covers_unrounded (h.ends line hline)
  have hplaced := @Element.IsPlaced.mk Number unrounded Reading.unrounded e
    (covers_unrounded h.x) (covers_unrounded h.y) hends
  obtain ⟨frame, body⟩ := e
  by_cases hline : body.kind = .line
  -- The extent of a line is a difference of whole coordinates.
  · cases body with
    | line line =>
      obtain ⟨⟨hwidth, -⟩, hheight, -⟩ := hspans.extent h
      exact @Element.IsMeasured.mk Number unrounded Reading.unrounded _ hplaced
        (covers_unrounded hwidth) (covers_unrounded hheight)
    | _ => cases hline
  -- That of a box is added to its origin, and the sum is finite.
  · obtain ⟨right, bottom, hright, hbottom, -⟩ :=
      (@Element.bounds_box_eq_ok Number unrounded ⟨frame, body⟩ hline b).mp hb
    obtain ⟨hright, ⟨_, hr⟩, -⟩ := Number.exactly_eq_ok.mp hright
    obtain ⟨hbottom, ⟨_, hm⟩, -⟩ := Number.exactly_eq_ok.mp hbottom
    exact @Element.IsMeasured.mk Number unrounded Reading.unrounded _ hplaced
      (exists_units?_of_add hright hr) (exists_units?_of_add hbottom hm)

theorem spans_unrounded {e : Element Number} (h : e.IsPlaced Reading.integer) (hspans : e.Spans) :
    @Element.Spans Number unrounded e := by
  intro line hline
  obtain ⟨⟨m, hm⟩, ⟨n, hn⟩⟩ := h.ends line hline
  obtain ⟨p, hp⟩ := h.x
  obtain ⟨q, hq⟩ := h.y
  have hspanning := hspans line hline
  unfold Frame.spanning at hspanning ⊢
  rw [hm, hn, hp, hq] at hspanning ⊢
  rw [sub_unrounded_int, sub_unrounded_int]
  exact hspanning

/-- What is not negative in extent reaches no less than nothing far. -/
theorem reach_box_nonneg {ρ : Scalar.Reading α} {e : Element α}
    (h : 0 ≤ ρ.value e.frame.width ∧ 0 ≤ ρ.value e.frame.height) (direction : Direction) :
    0 ≤ (e.box ρ).reach direction := by
  obtain ⟨frame, body⟩ := e
  cases direction <;> cases body <;>
    simp only [Element.box, Bounds.reach, Bounds.lead, Bounds.trail, add_sub_cancel_left, h.1, h.2,
      sub_nonneg, min_le_max]

/-! ### Selections that overlap -/

/-- Segments that are in order stay in it. -/
theorem inOrder_of_pairwise {segments : List (Segment α)}
    (hself : (segments.all fun s => Scalar.eq s.lead s.lead) = true)
    (h : segments.Pairwise fun s t => (!Scalar.lt t.lead s.lead) = true) :
    inOrder segments = segments.zipIdx := by
  rw [inOrder, if_pos hself]
  refine List.mergeSort_of_pairwise ?_
  rw [← List.zipIdx_map_fst 0 segments, List.pairwise_map] at h
  exact h

/-- A rectangle that reaches so far from a place along x. -/
def bar (id : String) (x width : Number) : Element Number where
  frame := ⟨id, x, .int 0, width, .int 10, .int 0, .bool false, .bool true⟩
  body := .shape ⟨.rectangle, "transparent", "#000000", .int 2, .int 0⟩

/-- A short bar at the start of two long ones. -/
def stacked : List (Element Number) :=
  [bar "a" (.int 0) (.int 1), bar "b" (.int 0) (.int 100), bar "c" (.int 0) (.int 100)]

theorem isMeasured_stacked : ∀ e ∈ stacked, e.IsMeasured Reading.integer ∧ e.Spans := by
  have hbar (id : String) (x width : Int) :
      (bar id (.int x) (.int width)).IsMeasured Reading.integer ∧
        (bar id (.int x) (.int width)).Spans := by
    refine ⟨⟨⟨⟨_, rfl⟩, ⟨_, rfl⟩, ?_⟩, ⟨_, rfl⟩, ⟨_, rfl⟩⟩, ?_⟩ <;> rintro line ⟨⟩
  simp only [stacked, List.forall_mem_cons]
  exact ⟨hbar _ _ _, hbar _ _ _, hbar _ _ _, List.forall_mem_nil _⟩

theorem extent_nonneg_stacked :
    ∀ e ∈ stacked, 0 ≤ e.frame.width.value ∧ 0 ≤ e.frame.height.value := by
  simp [stacked, bar]

/-- The second bar is taken out to the left by half its extent less a half, exactly. -/
theorem distribute_stacked : @distribute Number unrounded stacked .horizontal =
    .ok [bar "a" (.int 0) (.int 1), bar "b" (.fraction (-99) 2) (.int 100),
      bar "c" (.int 0) (.int 100)] := by
  let boxes : List (Bounds Number) := [⟨.int 0, .int 0, .int 1, .int 10⟩,
    ⟨.int 0, .int 0, .int 100, .int 10⟩, ⟨.int 0, .int 0, .int 100, .int 10⟩]
  let segments : List (Segment Number) := [⟨.int 0, .int 1, .int 1⟩,
    ⟨.int 0, .int 100, .int 100⟩, ⟨.int 0, .int 100, .int 100⟩]
  have hboxes : stacked.mapM (@Element.bounds Number unrounded) = .ok boxes := by decide +kernel
  have hsegments : boxes.mapM (@segment Number unrounded .horizontal) = .ok segments := by
    decide +kernel
  -- The bars are in order as they are.
  have horder : @inOrder Number unrounded segments = segments.zipIdx :=
    @inOrder_of_pairwise Number unrounded _ (by decide +kernel) (by decide +kernel)
  unfold distribute
  rw [if_neg (by decide), hboxes, ok_bind, hsegments, ok_bind, horder]
  decide +kernel

/-- The box around a distributed selection. Over at least three elements of whole coordinates
and of extents that are not negative, a distribution of which no step rounds leaves the box as
it was exactly if the extents, in the stable order of the leading edges, have room; and they
have room if the gap is not negative. -/
theorem selectionBounds_distribute {direction : Direction} {elements result : List (Element Number)}
    {after : Bounds Number} (hcount : 3 ≤ elements.length)
    (helements : ∀ e ∈ elements, e.IsPlaced Reading.integer ∧ e.Spans)
    (hextents : ∀ e ∈ elements, 0 ≤ e.frame.width.value ∧ 0 ≤ e.frame.height.value)
    (hdistribute : @distribute Number unrounded elements direction = .ok result)
    (hselection : @selectionBounds Number unrounded result = .ok (some after)) :
    distribute elements direction = .ok result ∧ selectionBounds result = .ok (some after) ∧
    ∃ boxes before order gap, elements.mapM Element.bounds = .ok boxes ∧
      selectionBounds elements = .ok (some before) ∧
      IsStable (Bounds.lead direction) (boxes.map (Bounds.map Number.value)) order ∧
      gap = ((before.map Number.value).reach direction -
        ((boxes.map (Bounds.map Number.value)).map (Bounds.reach direction)).sum) /
          (boxes.length - 1) ∧
      (after.agrees before = true ↔ HaveRoom gap (order.map fun p => p.1.reach direction)) ∧
      (0 ≤ gap → after.agrees before = true) := by
  -- A distribution begins with the boxes of its elements, so these are not rounded either.
  obtain ⟨boxes, hboxes⟩ := @exists_boxes_of_distribute Number unrounded _ _ _ hcount hdistribute
  have hmeasured : ∀ e ∈ elements, @Element.IsMeasured Number unrounded Reading.unrounded e ∧
      @Element.Spans Number unrounded e := by
    intro e he
    obtain ⟨hplaced, hspans⟩ := helements e he
    obtain ⟨b, -, hb⟩ := exists_of_forall₂ (mapM_eq_ok.mp hboxes) e he
    exact ⟨isMeasured_unrounded hplaced hspans hb, spans_unrounded hplaced hspans⟩
  have hne : elements ≠ [] := by
    rintro rfl
    simp at hcount
  have hbox := (@yields_boxes Number unrounded Reading.unrounded elements
    fun e he => (hmeasured e he).1).of_eq_ok hboxes
  have hmap : boxes.map (Bounds.map Number.value) =
      elements.map (@Element.box Number unrounded Reading.unrounded) :=
    map_eq_of_forall₂ (hbox.imp fun _ _ h => h.2)
  obtain ⟨found, hfound⟩ := @exists_selectionBounds Number unrounded _ _ hboxes
  obtain ⟨before, rfl, hcovered, haround⟩ := (@yields_selectionBounds Number unrounded
    Reading.unrounded elements hne fun e he => (hmeasured e he).1).of_eq_ok hfound
  obtain ⟨hcovered', gap, hgap, hiff⟩ := @around_distribute Number unrounded Reading.unrounded
    elements direction result _ after Reading.divides_unrounded hcount hmeasured hdistribute
    hselection haround
  rw [← hmap] at hgap hiff
  have hagrees :=
    (@Bounds.agrees_iff Number unrounded Reading.unrounded _ _ hcovered' hcovered).trans hiff
  have hreach : ∀ b ∈ boxes.map (Bounds.map Number.value), 0 ≤ b.reach direction := by
    rw [hmap, List.forall_mem_map]
    intro e he
    exact @reach_box_nonneg Number unrounded Reading.unrounded e (hextents e he) direction
  rw [show elements.length = boxes.length from hbox.length_eq] at hgap
  exact ⟨refines_distribute _ _ _ hdistribute, refines_selectionBounds _ _ hselection, boxes,
    before, _, gap, Refines.mapM Element.refines_bounds _ _ hboxes,
    refines_selectionBounds _ _ hfound, isStable_stably _ _, hgap, hagrees,
    fun hgap => hagrees.mpr (haveRoom_stably hgap hreach)⟩

/-- The bars that are stacked have no room: the second one starts in front of the first. -/
theorem selectionBounds_distribute_stacked :
    3 ≤ stacked.length ∧ (∀ e ∈ stacked, e.IsPlaced Reading.integer ∧ e.Spans) ∧
    (∀ e ∈ stacked, 0 ≤ e.frame.width.value ∧ 0 ≤ e.frame.height.value) ∧
    ∃ result after, @distribute Number unrounded stacked .horizontal = .ok result ∧
      @selectionBounds Number unrounded result = .ok (some after) ∧
      distribute stacked .horizontal = .ok result ∧ selectionBounds result = .ok (some after) ∧
      ∃ boxes before order gap, stacked.mapM Element.bounds = .ok boxes ∧
        selectionBounds stacked = .ok (some before) ∧
        IsStable (Bounds.lead .horizontal) (boxes.map (Bounds.map Number.value)) order ∧
        gap = ((before.map Number.value).reach .horizontal -
          ((boxes.map (Bounds.map Number.value)).map (Bounds.reach .horizontal)).sum) /
            (boxes.length - 1) ∧
        (after.agrees before = true ↔
          HaveRoom gap (order.map fun p => p.1.reach .horizontal)) ∧
        (0 ≤ gap → after.agrees before = true) := by
  have hselection : @selectionBounds Number unrounded [bar "a" (.int 0) (.int 1),
      bar "b" (.fraction (-99) 2) (.int 100), bar "c" (.int 0) (.int 100)] =
      .ok (some ⟨.fraction (-99) 2, .int 0, .int 100, .int 10⟩) := by decide +kernel
  have hthree : 3 ≤ stacked.length := by decide
  have hplaced : ∀ e ∈ stacked, e.IsPlaced Reading.integer ∧ e.Spans := fun e he =>
    (isMeasured_stacked e he).imp_left fun h => h.toIsPlaced
  exact ⟨hthree, hplaced, extent_nonneg_stacked, _, _, distribute_stacked, hselection,
    selectionBounds_distribute hthree hplaced extent_nonneg_stacked distribute_stacked hselection⟩

/-- Distributed, they leave the box that they had, although nothing was rounded: its left edge
is taken from 0 to -49.5. -/
theorem not_agrees_stacked :
    3 ≤ stacked.length ∧ (∀ e ∈ stacked, e.IsMeasured Reading.integer ∧ e.Spans) ∧
    (∀ e ∈ stacked, 0 ≤ e.frame.width.value ∧ 0 ≤ e.frame.height.value) ∧
    ∃ result before after, @distribute Number unrounded stacked .horizontal = .ok result ∧
      @selectionBounds Number unrounded result = .ok (some after) ∧
      distribute stacked .horizontal = .ok result ∧
      selectionBounds stacked = .ok (some before) ∧
      selectionBounds result = .ok (some after) ∧ after.agrees before = false := by
  refine ⟨by decide, isMeasured_stacked, extent_nonneg_stacked, _,
    ⟨.int 0, .int 0, .int 100, .int 10⟩, ⟨.fraction (-99) 2, .int 0, .int 100, .int 10⟩,
    distribute_stacked, ?_, refines_distribute _ _ _ distribute_stacked, ?_, ?_, ?_⟩ <;>
    decide +kernel

end

end Geometry

end LabelLayout
