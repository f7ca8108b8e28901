import LabelLayout.Geometry.Distribute
import LabelLayout.Proofs.Geometry.Align
import Mathlib.Data.List.Chain
import Mathlib.Data.List.Nodup

/-!
# `LabelLayout.Proofs.Geometry.Distribute`: distributed elements are evenly spaced

A distribution puts its elements in the stable order of their leading edges, chooses a gap,
and finds in one pass over the order where each element has to start. What an element lacks
to its place is written down under its number, and the elements are slid in their own order.

The places are the sums of the extents and gaps that come before them (`lead_of_map_eq`), so
neighbours are a gap apart. The gap is chosen so that what the extents and gaps add up to is
the whole span, so the last element ends where the span ends (`Spreads.trail_eq`).
`Geometry.yields_distribute` says this of any reading that divides, and
`Geometry.distribute_evenly` is what comes of it over the rationals.
-/

set_option autoImplicit false

namespace LabelLayout

variable {α : Type} [Scalar α] {ρ : Scalar.Reading α}

/-! ### The stable order -/

/-- A merge sort of numbered items by what they are keeps the numbers of ties in order. -/
theorem pairwise_mergeSort_zipIdx {β : Type} (le : β → β → Bool)
    (htrans : ∀ a b c, le a b = true → le b c = true → le a c = true)
    (htotal : ∀ a b, (le a b || le b a) = true) (items : List β) :
    (items.zipIdx.mergeSort fun p q => le p.1 q.1).Pairwise fun p q =>
      le p.1 q.1 = true ∧ (le q.1 p.1 = true → p.2 < q.2) := by
  -- Numbering the numbered items once more makes the ties explicit.
  have hsorted := List.pairwise_mergeSort
    (List.zipIdxLE_trans fun a b c : β × Nat => htrans a.1 b.1 c.1)
    (List.zipIdxLE_total fun a b : β × Nat => htotal a.1 b.1) items.zipIdx.zipIdx
  have hsame : ∀ p ∈ items.zipIdx.zipIdx, p.1.2 = p.2 := by
    rintro ⟨⟨a, i⟩, j⟩ hp
    rw [List.mem_zipIdx_iff_getElem?, List.getElem?_zipIdx] at hp
    simp only [zero_add, Option.map_eq_some_iff, Prod.mk.injEq] at hp
    obtain ⟨_, -, -, rfl⟩ := hp
    rfl
  have hdistinct : ((items.zipIdx.zipIdx.mergeSort
      (List.zipIdxLE fun p q : β × Nat => le p.1 q.1)).map Prod.snd).Nodup := by
    refine ((List.mergeSort_perm _ _).map _).nodup_iff.mpr ?_
    rw [List.zipIdx_map_snd]
    exact List.nodup_range'
  rw [← List.mergeSort_zipIdx, List.pairwise_map]
  refine (hsorted.and (List.pairwise_map.mp hdistinct)).imp_of_mem ?_
  rintro p q hp hq ⟨hle, hne⟩
  rw [hsame p (List.mem_mergeSort.mp hp), hsame q (List.mem_mergeSort.mp hq)]
  simp only [List.zipIdxLE] at hle
  split at hle
  · next hpq =>
    refine ⟨hpq, fun hqp => ?_⟩
    rw [if_pos hqp] at hle
    exact lt_of_le_of_ne (of_decide_eq_true hle) hne
  · cases hle

/-- What stands for numbered items stands for the items. -/
theorem forall₂_of_zipIdx {β γ : Type} {R : β → γ → Prop} {xs : List β} {ys : List γ}
    (h : List.Forall₂ (fun p y => R p.1 y) xs.zipIdx ys) : List.Forall₂ R xs ys := by
  have hmap := (List.forall₂_map_left_iff (f := Prod.fst)).mpr h
  rwa [List.zipIdx_map_fst] at hmap

namespace Geometry

/-- Items with their numbers, in the order of their keys, which ties do not change. -/
structure IsStable {β : Type} (key : β → Rat) (items : List β) (order : List (β × Nat)) :
    Prop where
  perm : order.Perm items.zipIdx
  pairwise : order.Pairwise fun p q => key p.1 < key q.1 ∨ key p.1 = key q.1 ∧ p.2 < q.2

def stably {β : Type} (key : β → Rat) (items : List β) : List (β × Nat) :=
  items.zipIdx.mergeSort fun p q => decide (key p.1 ≤ key q.1)

section

variable {β γ : Type} (key : β → Rat) (items : List β)

theorem isStable_stably : IsStable key items (stably key items) := by
  refine ⟨List.mergeSort_perm _ _, ?_⟩
  refine (pairwise_mergeSort_zipIdx (fun a b => decide (key a ≤ key b)) ?_ ?_ items).imp ?_
  · simp only [decide_eq_true_eq]
    exact fun _ _ _ => le_trans
  · simp [le_total]
  · simp only [decide_eq_true_eq]
    rintro p q ⟨hle, htie⟩
    rcases hle.lt_or_eq with hlt | heq
    · exact .inl hlt
    · exact .inr ⟨heq, htie heq.ge⟩

/-- What stands for the items is in the order of its own keys. -/
theorem map_stably (key : γ → Rat) (f : β → γ) (items : List β) :
    (stably (fun b => key (f b)) items).map (Prod.map f id) = stably key (items.map f) := by
  rw [stably, List.map_mergeSort (s := fun p q => decide (key p.1 ≤ key q.1)), stably,
    List.zipIdx_map]
  exact fun _ _ _ _ => rfl

/-- The first item has the smallest key. -/
theorem min?_of_stably {p : β × Nat} {rest : List (β × Nat)} (h : stably key items = p :: rest) :
    (items.map key).min? = some (key p.1) := by
  have hstable := isStable_stably key items
  rw [h] at hstable
  have hmem (q : β × Nat) : q ∈ p :: rest ↔ q ∈ items.zipIdx := hstable.perm.mem_iff
  rw [List.min?_eq_some_iff]
  constructor
  · have hp := (hmem p).mp List.mem_cons_self
    exact List.mem_map_of_mem (List.fst_mem_of_mem_zipIdx hp)
  · intro a ha
    obtain ⟨b, hb, rfl⟩ := List.mem_map.mp ha
    obtain ⟨i, hi⟩ := List.mem_iff_getElem?.mp hb
    have hb := (hmem (b, i)).mpr (List.mem_zipIdx_iff_getElem?.mpr hi)
    rcases List.mem_cons.mp hb with rfl | hrest
    · exact le_rfl
    · rcases (List.pairwise_cons.mp hstable.pairwise).1 _ hrest with hlt | heq
      · exact hlt.le
      · exact heq.1.le

end

end Geometry

/-! ### Segments -/

/-- The segment of what a function makes of the edges. -/
def Segment.map {β : Type} (f : α → β) (s : Segment α) : Segment β :=
  ⟨f s.lead, f s.trail, f s.extent⟩

/-- A reading covers a segment. -/
structure Segment.IsCovered (ρ : Scalar.Reading α) (s : Segment α) : Prop where
  lead : ρ.covers s.lead
  trail : ρ.covers s.trail
  extent : ρ.covers s.extent

/-- The edge of a box that comes first along a direction. -/
def Bounds.lead (direction : Direction) (b : Bounds α) : α :=
  match direction with
  | .horizontal => b.left
  | .vertical => b.top

/-- The edge that comes last. -/
def Bounds.trail (direction : Direction) (b : Bounds α) : α :=
  match direction with
  | .horizontal => b.right
  | .vertical => b.bottom

/-- How far a box reaches along a direction. -/
def Bounds.reach (direction : Direction) (b : Bounds Rat) : Rat :=
  b.trail direction - b.lead direction

def Bounds.along (direction : Direction) (b : Bounds Rat) : Segment Rat :=
  ⟨b.lead direction, b.trail direction, b.reach direction⟩

namespace Geometry

variable {elements : List (Element α)} {direction : Direction}

theorem yields_segment {b : Bounds α} (hb : b.IsCovered ρ) (direction : Direction) :
    Yields ρ.mayFail (fun s => s.IsCovered ρ ∧ s.map ρ.value = (b.map ρ.value).along direction)
      (segment direction b) := by
  cases direction with
  | horizontal =>
    refine (ρ.sub hb.right hb.left).bind fun w hw => ?_
    refine yields_ok ⟨⟨hb.left, hb.right, hw.1⟩, ?_⟩
    simp only [Segment.map, hw.2]
    rfl
  | vertical =>
    refine (ρ.sub hb.bottom hb.top).bind fun h hh => ?_
    refine yields_ok ⟨⟨hb.top, hb.bottom, hh.1⟩, ?_⟩
    simp only [Segment.map, hh.2]
    rfl

/-- The segments of elements are those of the boxes around them. -/
theorem yields_segments {boxes : List (Bounds α)}
    (hboxes : List.Forall₂ (fun e b => b.IsCovered ρ ∧ b.map ρ.value = e.box ρ) elements boxes)
    (direction : Direction) :
    Yields ρ.mayFail (List.Forall₂ (fun e s => s.IsCovered ρ ∧
        s.map ρ.value = (e.box ρ).along direction) elements) (boxes.mapM (segment direction)) :=
  yields_mapM_of_forall₂ hboxes fun _ _ ⟨hcovered, hbox⟩ =>
    hbox ▸ yields_segment hcovered direction

/-- Segments are in the stable order of the values of their leads. -/
theorem map_inOrder {segments : List (Segment α)} (h : ∀ s ∈ segments, s.IsCovered ρ) :
    (inOrder segments).map (Prod.map (Segment.map ρ.value) id) =
      stably Segment.lead (segments.map (Segment.map ρ.value)) := by
  have hself : (segments.all fun s => Scalar.eq s.lead s.lead) = true := by
    rw [List.all_eq_true]
    intro s hs
    rw [ρ.eq (h s hs).lead (h s hs).lead, decide_eq_true rfl]
  rw [inOrder, if_pos hself, stably, List.zipIdx_map,
    List.map_mergeSort (s := fun p q => decide (p.1.lead ≤ q.1.lead))]
  intro p hp q hq
  have hp := (h p.1 (List.fst_mem_of_mem_zipIdx hp)).lead
  have hq := (h q.1 (List.fst_mem_of_mem_zipIdx hq)).lead
  rw [ρ.lt hq hp, ← decide_not]
  exact decide_eq_decide.mpr not_lt

/-! ### Gaps and places -/

/-- The gap is an equal share of what the extents leave of the span. -/
theorem yields_gap (hdivides : ρ.Divides) {start finish : α} {extents : List α}
    (hstart : ρ.covers start) (hfinish : ρ.covers finish) (hextents : ∀ x ∈ extents, ρ.covers x)
    (hcount : 2 ≤ extents.length) :
    Yields ρ.mayFail (fun g => ρ.covers g ∧ ρ.value g =
        (ρ.value finish - ρ.value start - (extents.map ρ.value).sum) / (extents.length - 1))
      (gap start finish extents) := by
  refine (ρ.sub hfinish hstart).bind fun span hspan => ?_
  refine (ρ.yields_sum hextents).bind fun total htotal => ?_
  refine (ρ.sub hspan.1 htotal.1).bind fun free hfree => ?_
  obtain ⟨hcovers, hvalue⟩ := ρ.ofInt (extents.length - 1)
  have hcast : ((extents.length - 1 : Int) : Rat) = extents.length - 1 := by push_cast; rfl
  rw [hcast] at hvalue
  have hne : ρ.value (Scalar.ofInt (extents.length - 1)) ≠ 0 := by
    have htwo : (2 : Rat) ≤ extents.length := by exact_mod_cast hcount
    rw [hvalue]
    linarith
  refine (hdivides hfree.1 hcovers hne).mono fun g hg => ⟨hg.1, ?_⟩
  rw [hg.2, hfree.2, hspan.2, htotal.2, hvalue]

/-- What some extents take up, with a gap for each. -/
def room (gap : Rat) (extents : List Rat) : Rat := extents.sum + extents.length * gap

@[simp]
theorem room_nil (gap : Rat) : room gap [] = 0 := by simp [room]

@[simp]
theorem room_append (gap : Rat) (xs ys : List Rat) :
    room gap (xs ++ ys) = room gap xs + room gap ys := by
  simp only [room, List.sum_append, List.length_append]
  push_cast
  ring

@[simp]
theorem room_cons (gap x : Rat) (xs : List Rat) : room gap (x :: xs) = x + gap + room gap xs := by
  simp only [room, List.sum_cons, List.length_cons]
  push_cast
  ring

/-- Where parts of some extents start that follow each other at a gap. -/
def startsOf (gap : Rat) : Rat → List Rat → List Rat
  | _, [] => []
  | current, extent :: rest => current :: startsOf gap (current + (extent + gap)) rest

@[simp]
theorem length_startsOf (gap current : Rat) (extents : List Rat) :
    (startsOf gap current extents).length = extents.length := by
  induction extents generalizing current with
  | nil => rfl
  | cons extent rest ih => rw [startsOf, List.length_cons, ih, List.length_cons]

theorem yields_starts {between current : α} (hbetween : ρ.covers between)
    (hcurrent : ρ.covers current) {segments : List (Segment α)}
    (h : ∀ s ∈ segments, s.IsCovered ρ) :
    Yields ρ.mayFail (fun places => (∀ p ∈ places, ρ.covers p) ∧ places.map ρ.value =
        startsOf (ρ.value between) (ρ.value current) (segments.map fun s => ρ.value s.extent))
      (starts between current segments) := by
  induction segments generalizing current with
  | nil => exact yields_ok ⟨fun p hp => absurd hp List.not_mem_nil, rfl⟩
  | cons s rest ih =>
    rw [List.forall_mem_cons] at h
    refine (ρ.add h.1.extent hbetween).bind fun step hstep => ?_
    refine (ρ.add hcurrent hstep.1).bind fun next hnext => ?_
    refine (ih hnext.1 h.2).bind fun places hplaces => ?_
    refine yields_ok ⟨List.forall_mem_cons.mpr ⟨hcurrent, hplaces.1⟩, ?_⟩
    rw [List.map_cons, List.map_cons, startsOf, hplaces.2, hnext.2, hstep.2]

/-- Each part starts behind the extents and gaps of those before it. -/
theorem lead_of_map_eq {β : Type} {lead extent : β → Rat} {gap : Rat} {before after : List β}
    {b : β} {current : Rat}
    (h : (before ++ b :: after).map lead =
      startsOf gap current ((before ++ b :: after).map extent)) :
    lead b = current + room gap (before.map extent) := by
  induction before generalizing current with
  | nil =>
    rw [(List.cons.inj h).1]
    simp
  | cons a before ih =>
    rw [ih (List.cons.inj h).2, List.map_cons, room_cons]
    ring

/-! ### The run -/

/-- Under the number of every segment of an order stands what the segment lacks to its place. -/
def Lists (ρ : Scalar.Reading α) (order : List (Segment α × Nat)) (places : List α)
    (deltas : List (Nat × α)) : Prop :=
  List.Forall₂ (fun p place => ∃ d, deltas.lookup p.2 = some d ∧ ρ.covers d ∧
    ρ.value d = ρ.value place - ρ.value p.1.lead) order places

section

variable {order : List (Segment α × Nat)} {places : List α} {deltas : List (Nat × α)}

theorem yields_deltas (hnumbers : (order.map Prod.snd).Nodup)
    (horder : ∀ p ∈ order, p.1.IsCovered ρ) (hplaces : ∀ p ∈ places, ρ.covers p)
    (hlength : order.length = places.length) :
    Yields ρ.mayFail (Lists ρ order places)
      ((order.zip places).mapM fun ((s, i), start) => do
        return (i, ← Scalar.sub start s.lead)) := by
  have hrun : Yields ρ.mayFail (List.Forall₂ (fun x d => d.1 = x.1.2 ∧ ρ.covers d.2 ∧
      ρ.value d.2 = ρ.value x.2 - ρ.value x.1.1.lead) (order.zip places))
      ((order.zip places).mapM fun ((s, i), start) => do
        return (i, ← Scalar.sub start s.lead)) := by
    refine yields_mapM ?_
    rintro ⟨⟨s, i⟩, start⟩ hmem
    obtain ⟨hs, hstart⟩ := List.of_mem_zip hmem
    refine (ρ.sub (hplaces _ hstart) (horder _ hs).lead).bind fun d hd => ?_
    exact yields_ok ⟨rfl, hd.1, hd.2⟩
  refine hrun.mono fun deltas h => ?_
  have hkeys : (deltas.map Prod.fst).Nodup := by
    rw [map_eq_of_forall₂ (h.imp fun _ _ h => h.1)]
    show ((order.zip places).map (Prod.snd ∘ Prod.fst)).Nodup
    rwa [← List.map_map, List.map_fst_zip hlength.le]
  refine List.forall₂_iff_zip.mpr ⟨hlength, fun hmem => ?_⟩
  obtain ⟨⟨i, d⟩, hd, hi, hcovers, hvalue⟩ := exists_of_forall₂ h _ hmem
  obtain rfl : i = _ := hi
  exact ⟨d, lookup_of_mem hkeys hd, hcovers, hvalue⟩

/-- The value of what is written down under a number. -/
def lack (ρ : Scalar.Reading α) (deltas : List (Nat × α)) (i : Nat) : Rat :=
  ((deltas.lookup i).map ρ.value).getD 0

theorem Lists.map_value (h : Lists ρ order places deltas) :
    places.map ρ.value = order.map fun p => ρ.value p.1.lead + lack ρ deltas p.2 :=
  map_eq_of_forall₂ (h.imp fun p place ⟨d, hd, _, hvalue⟩ => by
    rw [lack, hd, Option.map_some, Option.getD_some, hvalue, add_sub_cancel])

/-- Something stands under every number of as many elements as there are segments. -/
theorem Lists.exists_lookup (h : Lists ρ order places deltas) {segments : List (Segment α)}
    (hperm : order.Perm segments.zipIdx) (hlength : segments.length = elements.length) :
    ∀ p ∈ elements.zipIdx, ∃ d, deltas.lookup p.2 = some d ∧ ρ.covers d := by
  rintro ⟨e, i⟩ he
  have hi : i < segments.length := by
    rw [hlength]
    exact List.snd_lt_of_mem_zipIdx he
  have hs : (segments[i], i) ∈ segments.zipIdx :=
    List.mem_zipIdx_iff_getElem?.mpr (List.getElem?_eq_getElem hi)
  obtain ⟨_, -, d, hd, hcovers, -⟩ := exists_of_forall₂ h _ (hperm.mem_iff.mpr hs)
  exact ⟨d, hd, hcovers⟩

end

/-- Segments, so much further on, share their span evenly: taken in their stable order they
start at `start`, follow each other at a gap, and the gap is an equal share of what their
extents leave of the span. -/
structure Spreads (segments : List (Segment Rat)) (start finish gap : Rat) (δ : Nat → Rat) :
    Prop where
  min_lead : (segments.map Segment.lead).min? = some start
  max_trail : (segments.map Segment.trail).max? = some finish
  gap_eq : gap = (finish - start - (segments.map Segment.extent).sum) / (segments.length - 1)
  places : (stably Segment.lead segments).map (fun p => p.1.lead + δ p.2) =
    startsOf gap start ((stably Segment.lead segments).map fun p => p.1.extent)

/-- What segments lack to the places that a distribution finds for them spreads them. -/
theorem Lists.spreads {segments : List (Segment α)} {places : List α} {deltas : List (Nat × α)}
    {start finish between : α} (hcovered : ∀ s ∈ segments, s.IsCovered ρ)
    (hstart : (inOrder segments).head?.map (fun p => p.1.lead) = some start)
    (hfinish : ((segments.map Segment.trail).map ρ.value).max? = some (ρ.value finish))
    (hgap : ρ.value between = (ρ.value finish - ρ.value start -
      ((segments.map Segment.extent).map ρ.value).sum) / (segments.length - 1))
    (hplaces : places.map ρ.value = startsOf (ρ.value between) (ρ.value start)
      ((inOrder segments).map fun p => ρ.value p.1.extent))
    (h : Lists ρ (inOrder segments) places deltas) :
    Spreads (segments.map (Segment.map ρ.value)) (ρ.value start) (ρ.value finish)
      (ρ.value between) (lack ρ deltas) := by
  have hsorted := map_inOrder hcovered
  refine ⟨?_, ?_, ?_, ?_⟩
  · obtain ⟨p, hp, rfl⟩ := Option.map_eq_some_iff.mp hstart
    obtain ⟨rest, horder⟩ := List.head?_eq_some_iff.mp hp
    rw [horder] at hsorted
    exact min?_of_stably _ _ hsorted.symm
  · rw [List.map_map] at hfinish ⊢
    exact hfinish
  · rw [List.map_map] at hgap ⊢
    rw [List.length_map]
    exact hgap
  · rw [← hsorted, List.map_map, List.map_map]
    exact h.map_value.symm.trans hplaces

/-- Elements are slid along a direction, each by what its number says. -/
def IsSlidBy (ρ : Scalar.Reading α) (direction : Direction) (δ : Nat → Rat)
    (elements result : List (Element α)) : Prop :=
  List.Forall₂ (fun p moved => p.1 ∈ elements ∧
    IsSlid ρ (direction == .horizontal) (δ p.2) p.1 moved) elements.zipIdx result

/-- Every element is slid by what is written down under its number. -/
theorem yields_slides (helements : ∀ e ∈ elements, e.IsMeasured ρ ∧ e.Spans)
    {deltas : List (Nat × α)}
    (hdeltas : ∀ p ∈ elements.zipIdx, ∃ d, deltas.lookup p.2 = some d ∧ ρ.covers d)
    (direction : Direction) :
    Yields ρ.mayFail (IsSlidBy ρ direction (lack ρ deltas) elements)
      (elements.zipIdx.mapM fun (e, i) =>
        match deltas.lookup i with
        | some delta => slide (direction == .horizontal) e delta
        | none => .ok e) := by
  refine yields_mapM ?_
  rintro ⟨e, i⟩ hmem
  obtain ⟨d, hd, hcovers⟩ := hdeltas _ hmem
  have he := List.fst_mem_of_mem_zipIdx hmem
  obtain ⟨hmeasured, hspans⟩ := helements e he
  simp only [lack, hd, Option.map_some, Option.getD_some]
  exact (yields_slide hmeasured.toIsPlaced hspans hcovers _).mono fun _ h => ⟨he, h⟩

/-- A distribution slides each element by what its segment is further on. -/
theorem yields_distribute (hdivides : ρ.Divides) (hcount : 3 ≤ elements.length)
    (helements : ∀ e ∈ elements, e.IsMeasured ρ ∧ e.Spans) (direction : Direction) :
    Yields ρ.mayFail (fun result => ∃ start finish gap δ,
        Spreads ((elements.map (Element.box ρ)).map (Bounds.along direction)) start finish gap δ ∧
        IsSlidBy ρ direction δ elements result)
      (distribute elements direction) := by
  rw [distribute, if_neg (by omega)]
  refine (yields_boxes fun e he => (helements e he).1).bind fun boxes hboxes => ?_
  refine (yields_segments hboxes direction).bind fun segments hsegments => ?_
  have hcovered : ∀ s ∈ segments, s.IsCovered ρ := fun s hs => by
    obtain ⟨e, -, hcovered, -⟩ := exists_of_forall₂ hsegments.flip s hs
    exact hcovered
  have halong : segments.map (Segment.map ρ.value) =
      (elements.map (Element.box ρ)).map (Bounds.along direction) := by
    rw [List.map_map]
    exact map_eq_of_forall₂ (hsegments.imp fun _ _ h => h.2)
  have hlength : segments.length = elements.length := hsegments.length_eq.symm
  have hperm := inOrder_perm segments
  have hmem : ∀ p ∈ inOrder segments, p.1.IsCovered ρ := fun p hp =>
    hcovered _ (List.fst_mem_of_mem_zipIdx (hperm.mem_iff.mp hp))
  obtain ⟨first, rest, rfl⟩ := List.exists_cons_of_length_pos (l := segments) (by omega)
  obtain ⟨⟨leading, number⟩, others, horder⟩ :=
    List.exists_cons_of_ne_nil fun h : inOrder (first :: rest) = [] => by simp [h] at hperm
  simp only [horder]
  rw [← horder]
  have hlead := (hmem (leading, number) (by simp [horder])).lead
  have htrails : ∀ x ∈ first.trail :: rest.map Segment.trail, ρ.covers x :=
    List.forall_mem_map.mpr fun s hs => (hcovered s hs).trail
  have hfinish := ρ.maximum htrails
  have hextents : ∀ x ∈ (first :: rest).map Segment.extent, ρ.covers x :=
    List.forall_mem_map.mpr fun s hs => (hcovered s hs).extent
  refine (yields_gap hdivides hlead hfinish.1 hextents (by rw [List.length_map]; omega)).bind
    fun between hbetween => ?_
  refine (yields_starts hbetween.1 hlead (List.forall_mem_map.mpr hmem)).bind
    fun places hplaces => ?_
  have hcounts : (inOrder (first :: rest)).length = places.length := by
    simpa using (congrArg List.length hplaces.2).symm
  have hnumbers : ((inOrder (first :: rest)).map Prod.snd).Nodup := by
    rw [(hperm.map Prod.snd).nodup_iff, List.zipIdx_map_snd]
    exact List.nodup_range'
  refine (yields_deltas hnumbers hmem hplaces.1 hcounts).bind fun deltas hdeltas => ?_
  rw [List.map_map] at hplaces
  rw [List.length_map] at hbetween
  have hspreads := hdeltas.spreads hcovered (by rw [horder]; rfl) hfinish.2 hbetween.2 hplaces.2
  rw [halong] at hspreads
  exact (yields_slides helements (hdeltas.exists_lookup hperm hlength) _).mono fun result hresult =>
    ⟨_, _, _, _, hspreads, hresult⟩

/-! ### What spread segments look like -/

section

variable {segments : List (Segment Rat)} {start finish gap : Rat} {δ : Nat → Rat}
  {before after : List (Segment Rat × Nat)} {p : Segment Rat × Nat}

/-- A segment starts behind those before it. -/
theorem Spreads.lead_eq (h : Spreads segments start finish gap δ)
    (hsplit : stably Segment.lead segments = before ++ p :: after) :
    p.1.lead + δ p.2 = start + room gap (before.map fun q => q.1.extent) := by
  have hplaces := h.places
  rw [hsplit] at hplaces
  exact (lead_of_map_eq hplaces :)

/-- The extents and the gaps between them fill the span. -/
theorem Spreads.room_eq (h : Spreads segments start finish gap δ) (hcount : 2 ≤ segments.length) :
    start + room gap ((stably Segment.lead segments).map fun q => q.1.extent) = finish + gap := by
  have hextents : ((stably Segment.lead segments).map fun q => q.1.extent).Perm
      (segments.map Segment.extent) := by
    refine ((isStable_stably Segment.lead segments).perm.map _).trans (.of_eq ?_)
    show segments.zipIdx.map (Segment.extent ∘ Prod.fst) = _
    rw [← List.map_map, List.zipIdx_map_fst]
  have hspan : (segments.length - 1 : Rat) * gap =
      finish - start - (segments.map Segment.extent).sum := by
    have htwo : (2 : Rat) ≤ segments.length := by exact_mod_cast hcount
    rw [h.gap_eq]
    field_simp [show (segments.length - 1 : Rat) ≠ 0 by linarith]
  rw [room, hextents.sum_eq, hextents.length_eq, List.length_map]
  linarith

/-- A segment ends in front of those after it. -/
theorem Spreads.trail_eq (h : Spreads segments start finish gap δ) (hcount : 2 ≤ segments.length)
    (hsplit : stably Segment.lead segments = before ++ p :: after) :
    p.1.lead + δ p.2 + p.1.extent = finish - room gap (after.map fun q => q.1.extent) := by
  have hroom := h.room_eq hcount
  rw [hsplit, List.map_append, List.map_cons, room_append, room_cons] at hroom
  rw [h.lead_eq hsplit]
  linarith

end

/-! ### Even gaps -/

/-- Boxes along a direction in the stable order of their leading edges, each with the box that it
was before and its number: the first starts where the first box started, the last ends where the
last one ended, and all neighbours are a gap apart. -/
def IsEven (direction : Direction) (boxes placed : List (Bounds Rat)) : Prop :=
  ∃ (order : List ((Bounds Rat × Bounds Rat) × Nat)) (gap : Rat),
    IsStable (fun p => p.1.lead direction) (boxes.zip placed) order ∧
    (order.head?.map fun p => p.1.2.lead direction) = (boxes.map (Bounds.lead direction)).min? ∧
    (order.getLast?.map fun p => p.1.2.trail direction) =
      (boxes.map (Bounds.trail direction)).max? ∧
    order.IsChain fun p q => q.1.2.lead direction - p.1.2.trail direction = gap

/-- Boxes with those that they are placed at, in the stable order of their leading edges. -/
def ordered (direction : Direction) (boxes placed : List (Bounds Rat)) :
    List ((Bounds Rat × Bounds Rat) × Nat) :=
  stably (fun p => p.1.lead direction) (boxes.zip placed)

/-- Boxes are placed as much further on as their numbers say. -/
structure IsPlacedBy (direction : Direction) (δ : Nat → Rat) (boxes placed : List (Bounds Rat)) :
    Prop where
  length_eq : boxes.length = placed.length
  shifted : ∀ p ∈ (boxes.zip placed).zipIdx,
    p.1.2.lead direction = p.1.1.lead direction + δ p.2 ∧
    p.1.2.trail direction = p.1.1.trail direction + δ p.2

section

variable {boxes placed : List (Bounds Rat)} {start finish gap : Rat} {δ : Nat → Rat}

theorem isStable_ordered (direction : Direction) (boxes placed : List (Bounds Rat)) :
    IsStable (fun p => p.1.lead direction) (boxes.zip placed) (ordered direction boxes placed) :=
  isStable_stably _ _

/-- What the boxes are is in the order of the placed boxes. -/
theorem map_ordered {β : Type} (key : β → Rat) (f : Bounds Rat → β)
    (hkey : ∀ b, key (f b) = b.lead direction) (hlength : boxes.length = placed.length) :
    (ordered direction boxes placed).map (Prod.map (fun p => f p.1) id) =
      stably key (boxes.map f) := by
  have hmap := map_stably key (fun p : Bounds Rat × Bounds Rat => f p.1) (boxes.zip placed)
  simp only [hkey] at hmap
  refine hmap.trans (congrArg _ ?_)
  show (boxes.zip placed).map (f ∘ Prod.fst) = _
  rw [← List.map_map, List.map_fst_zip hlength.le]

variable {before after : List ((Bounds Rat × Bounds Rat) × Nat)}
  {p : (Bounds Rat × Bounds Rat) × Nat}

/-- A placed box starts behind those before it and ends in front of those after it. -/
theorem Spreads.placed_eq (h : Spreads (boxes.map (Bounds.along direction)) start finish gap δ)
    (hcount : 2 ≤ boxes.length) (hplaced : IsPlacedBy direction δ boxes placed)
    (hsplit : ordered direction boxes placed = before ++ p :: after) :
    p.1.2.lead direction = start + room gap (before.map fun q => q.1.1.reach direction) ∧
      p.1.2.trail direction = finish - room gap (after.map fun q => q.1.1.reach direction) ∧
      p.1.2.reach direction = p.1.1.reach direction := by
  have hp : p ∈ ordered direction boxes placed := by simp [hsplit]
  obtain ⟨hlead, htrail⟩ :=
    hplaced.shifted p ((isStable_ordered direction boxes placed).perm.mem_iff.mp hp)
  have hsegments :=
    map_ordered Segment.lead (Bounds.along direction) (fun _ => rfl) hplaced.length_eq
  rw [hsplit, List.map_append, List.map_cons] at hsegments
  have hleads := h.lead_eq hsegments.symm
  have htrails := h.trail_eq (by rwa [List.length_map]) hsegments.symm
  rw [List.map_map] at hleads htrails
  refine ⟨hlead.trans hleads, ?_, ?_⟩
  · refine Eq.trans ?_ htrails
    simp only [htrail, Prod.map, Bounds.along, Bounds.reach, id]
    ring
  · simp only [Bounds.reach, hlead, htrail]
    ring

theorem length_ordered (direction : Direction) (hlength : boxes.length = placed.length) :
    (ordered direction boxes placed).length = boxes.length := by
  rw [(isStable_ordered direction boxes placed).perm.length_eq, List.length_zipIdx,
    List.length_zip, ← hlength, min_self]

/-- The first of the placed boxes starts where the span does, and the last ends where it ends. -/
theorem Spreads.ends_eq (h : Spreads (boxes.map (Bounds.along direction)) start finish gap δ)
    (hcount : 2 ≤ boxes.length) (hplaced : IsPlacedBy direction δ boxes placed) :
    ((ordered direction boxes placed).head?.map fun p => p.1.2.lead direction) = some start ∧
      ((ordered direction boxes placed).getLast?.map fun p => p.1.2.trail direction) =
        some finish := by
  have hne : ordered direction boxes placed ≠ [] := by
    rw [← List.length_pos_iff, length_ordered direction hplaced.length_eq]
    omega
  constructor
  · -- Nothing comes before the first box.
    obtain ⟨p, after, hsplit⟩ := List.exists_cons_of_ne_nil hne
    obtain ⟨hlead, -⟩ := h.placed_eq hcount hplaced (hsplit.trans (List.nil_append _).symm)
    rw [hsplit, List.head?_cons, Option.map_some, hlead, List.map_nil, room_nil, add_zero]
  · -- And nothing after the last.
    obtain ⟨before, p, hsplit⟩ := (List.eq_nil_or_concat _).resolve_left hne
    rw [List.concat_eq_append] at hsplit
    obtain ⟨-, htrail, -⟩ := h.placed_eq hcount hplaced hsplit
    rw [hsplit, List.getLast?_concat, Option.map_some, htrail, List.map_nil, room_nil, sub_zero]

theorem Spreads.isEven (h : Spreads (boxes.map (Bounds.along direction)) start finish gap δ)
    (hcount : 2 ≤ boxes.length) (hplaced : IsPlacedBy direction δ boxes placed) :
    IsEven direction boxes placed := by
  have hmin := h.min_lead
  have hmax := h.max_trail
  rw [List.map_map] at hmin hmax
  obtain ⟨hfirst, hlast⟩ := h.ends_eq hcount hplaced
  refine ⟨ordered direction boxes placed, gap, isStable_ordered _ _ _, hfirst.trans hmin.symm,
    hlast.trans hmax.symm, ?_⟩
  rw [List.isChain_iff_forall_rel_of_append_cons_cons]
  intro p q before after hsplit
  obtain ⟨hlead, -, hreach⟩ := h.placed_eq hcount hplaced hsplit
  rw [List.append_cons] at hsplit
  obtain ⟨hnext, -, -⟩ := h.placed_eq hcount hplaced hsplit
  rw [List.map_append, room_append, List.map_singleton, room_cons, room_nil] at hnext
  rw [Bounds.reach] at hreach
  linarith

end

/-- The box of a slid element is as far further along. -/
theorem IsSlid.box_eq {e moved : Element α} {delta : Rat}
    (h : IsSlid ρ (direction == .horizontal) delta e moved) :
    (moved.box ρ).lead direction = (e.box ρ).lead direction + delta ∧
      (moved.box ρ).trail direction = (e.box ρ).trail direction + delta := by
  rw [Element.IsMoved.box_eq h]
  cases direction <;> exact ⟨rfl, rfl⟩

theorem IsSlidBy.isPlacedBy {result : List (Element α)} {δ : Nat → Rat}
    (h : IsSlidBy ρ direction δ elements result) :
    IsPlacedBy direction δ (elements.map (Element.box ρ)) (result.map (Element.box ρ)) := by
  refine ⟨by simpa using h.length_eq, ?_⟩
  rintro ⟨⟨b, b'⟩, i⟩ hp
  simp only [List.mem_zipIdx_iff_getElem?, List.getElem?_zip_eq_some, List.getElem?_map,
    Option.map_eq_some_iff] at hp
  obtain ⟨⟨e, he, rfl⟩, moved, hmoved, rfl⟩ := hp
  have hpair : ((e, i), moved) ∈ elements.zipIdx.zip result := by
    refine List.mem_of_getElem? (i := i) (List.getElem?_zip_eq_some.mpr ⟨?_, hmoved⟩)
    simp [he]
  exact (List.forall₂_zip h hpair).2.box_eq

/-- Distributed elements are evenly spaced. Over the rationals, at least three elements are slid
along the direction until, in the stable order of their leading edges, the first starts where
the first of all starts, the last ends where the last of all ends, and all neighbours are a gap
apart. They stay in the order that they are given in, and sliding leaves all else as it was. -/
theorem distribute_evenly (elements : List (Element Rat)) (direction : Direction)
    (hcount : 3 ≤ elements.length) (hspans : ∀ e ∈ elements, e.Spans) :
    ∃ boxes result placed, elements.mapM Element.bounds = .ok boxes ∧
      distribute elements direction = .ok result ∧ result.mapM Element.bounds = .ok placed ∧
      IsEven direction boxes placed ∧
      List.Forall₂ (SlidesAlong (direction == .horizontal)) elements result := by
  have hbounds (es : List (Element Rat)) :
      es.mapM Element.bounds = .ok (es.map (Element.box Scalar.Reading.rational)) := by
    obtain ⟨boxes, hboxes, h⟩ :=
      (yields_boxes fun e (_ : e ∈ es) => isMeasured_rational e).exists_ok id
    rw [hboxes, ← map_eq_of_forall₂ (h.imp fun _ _ h => h.2)]
    exact congrArg Except.ok (List.map_id boxes).symm
  obtain ⟨result, hresult, start, finish, gap, δ, hspreads, hslid⟩ :=
    (yields_distribute Scalar.Reading.divides_rational hcount
      (fun e he => ⟨isMeasured_rational e, hspans e he⟩) direction).exists_ok id
  refine ⟨_, result, _, hbounds elements, hresult, hbounds result, ?_, ?_⟩
  · refine hspreads.isEven ?_ hslid.isPlacedBy
    rw [List.length_map]
    omega
  · exact forall₂_of_zipIdx (hslid.imp fun p _ ⟨he, hslide⟩ =>
      hslide.slidesAlong Scalar.Reading.isFaithful_rational id (isMeasured_rational p.1)
        (hspans p.1 he))

/-- A frame around a picture and a line, which runs to the left and ends where the picture
starts. -/
def crowded : List (Element Rat) :=
  [⟨⟨"picture", 20, 10, 10, 20, 0, .bool false, .bool true⟩, .image ⟨"/a.png", .contain⟩⟩,
    ⟨⟨"frame", 0, 40, 90, 15, 0, .null, .bool true⟩,
      .shape ⟨.rectangle, "transparent", "#000000", 2, 0⟩⟩,
    ⟨⟨"rule", 45, 60, 25, 50, 0, .null, .bool true⟩,
      .line {
        x2 := 20, y2 := 10, stroke := "#000000", strokeWidth := 2, strokeStyle := .solid }⟩]

/-- Distributed from left to right, they overlap by a half of 35. -/
theorem distribute_evenly_crowded :
    3 ≤ crowded.length ∧ (∀ e ∈ crowded, e.Spans) ∧
    ∃ boxes result placed, crowded.mapM Element.bounds = .ok boxes ∧
      distribute crowded .horizontal = .ok result ∧ result.mapM Element.bounds = .ok placed ∧
      IsEven .horizontal boxes placed ∧ List.Forall₂ (SlidesAlong true) crowded result := by
  have hspans : ∀ e ∈ crowded, e.Spans := by
    intro e he
    simp only [crowded, List.mem_cons, List.not_mem_nil, or_false] at he
    rcases he with rfl | rfl | rfl <;> rintro line hline <;> cases hline
    decide +kernel
  have hthree : 3 ≤ crowded.length := by decide
  exact ⟨hthree, hspans, distribute_evenly crowded .horizontal hthree hspans⟩

end Geometry

end LabelLayout
