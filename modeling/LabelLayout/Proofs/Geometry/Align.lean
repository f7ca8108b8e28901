import LabelLayout.Proofs.Geometry.Moved
import Mathlib.Data.List.Perm.Basic
import Mathlib.Tactic.Positivity
import Mathlib.Tactic.Ring

/-!
# `LabelLayout.Proofs.Geometry.Align`: aligned elements share an edge or a center

An alignment measures a position in the box of every element (`Geometry.anchorOf`), chooses
a goal from these positions (`Geometry.IsGoal`) and slides every element by what it lacks.
`Geometry.yields_align_of` is the run, for any property of the slides. Two are of interest:
an element that is not at the goal is brought there, and one that is there stays. All anchors
of aligned elements are the goal, which therefore is their goal once more, so a second
alignment changes nothing. The order of the elements does not matter (`Geometry.align_perm`).

`Geometry.align_linesUp` states this over the rationals for every mode, and for the modes
that take an edge also over elements of integer coordinates, on which the numbers of a design
do not round. The left and the top edge of a box are coordinates themselves
(`AlignMode.isLeading`), so there it is enough that the origins do not round. An extent may then
be any number: only that it can be added to the origin is asked for, and it is kept
(`StaysAcross`).
-/

set_option autoImplicit false

namespace LabelLayout

/-- Whether a mode lines up an edge, not a center. -/
def AlignMode.isEdge : AlignMode → Bool
  | .left | .right | .top | .bottom => true
  | .center | .middle => false

/-- Whether a mode lines up the edge that an element starts at, which takes no extent. -/
def AlignMode.isLeading : AlignMode → Bool
  | .left | .top => true
  | .center | .right | .middle | .bottom => false

theorem AlignMode.isEdge_of_isLeading {mode : AlignMode} (h : mode.isLeading = true) :
    mode.isEdge = true := by
  cases mode <;> first | rfl | cases h

variable {α : Type} [Scalar α] {ρ : Scalar.Reading α}

namespace Geometry

/-! ### Anchors and goals -/

/-- The position that a mode lines up in a box. -/
def anchorOf (mode : AlignMode) (b : Bounds Rat) : Rat :=
  match mode with
  | .left => b.left
  | .right => b.right
  | .top => b.top
  | .bottom => b.bottom
  | .center => (b.left + b.right) / 2
  | .middle => (b.top + b.bottom) / 2

/-- The position that some positions are brought to: the smallest of them, the largest, or
their mean. -/
def IsGoal (mode : AlignMode) (positions : List Rat) (goal : Rat) : Prop :=
  match mode with
  | .left | .top => positions.min? = some goal
  | .right | .bottom => positions.max? = some goal
  | .center | .middle => goal = positions.sum / positions.length

/-- Where all positions are one, that is their goal. -/
theorem IsGoal.eq_of_forall_eq {mode : AlignMode} {positions : List Rat} {goal a : Rat}
    (h : IsGoal mode positions goal) (hne : positions ≠ []) (ha : ∀ p ∈ positions, p = a) :
    goal = a := by
  have hmean : positions.sum / positions.length = a := by
    have hlength : (positions.length : Rat) ≠ 0 := by simpa using hne
    rw [List.eq_replicate_of_mem ha, List.sum_replicate, List.length_replicate, nsmul_eq_mul,
      mul_div_cancel_left₀ _ hlength]
  cases mode with
  | left | top => exact ha goal (List.min?_eq_some_iff.mp h).1
  | right | bottom => exact ha goal (List.max?_eq_some_iff.mp h).1
  | center | middle => exact (show goal = _ from h).trans hmean

/-- A reading under which a mode's anchors and goal are computed as they are. -/
structure Measures (ρ : Scalar.Reading α) (mode : AlignMode) : Prop where
  anchor : ∀ b : Bounds α, b.IsCovered ρ →
    Yields ρ.mayFail (fun a => ρ.covers a ∧ ρ.value a = anchorOf mode (b.map ρ.value))
      (anchor mode b)
  target : ∀ first rest, (∀ a ∈ first :: rest, ρ.covers a) →
    Yields ρ.mayFail (fun t => ρ.covers t ∧ IsGoal mode ((first :: rest).map ρ.value) (ρ.value t))
      (target mode first rest)

/-- An edge and the outermost of some edges are found by comparison. -/
theorem measures_of_isEdge (ρ : Scalar.Reading α) {mode : AlignMode} (h : mode.isEdge = true) :
    Measures ρ mode := by
  cases mode with
  | left => exact ⟨fun b hb => yields_ok ⟨hb.left, rfl⟩, fun _ _ h => yields_ok (ρ.minimum h)⟩
  | right => exact ⟨fun b hb => yields_ok ⟨hb.right, rfl⟩, fun _ _ h => yields_ok (ρ.maximum h)⟩
  | top => exact ⟨fun b hb => yields_ok ⟨hb.top, rfl⟩, fun _ _ h => yields_ok (ρ.minimum h)⟩
  | bottom => exact ⟨fun b hb => yields_ok ⟨hb.bottom, rfl⟩, fun _ _ h => yields_ok (ρ.maximum h)⟩
  | center | middle => cases h

theorem middle_rat (low high : Rat) : Bounds.middle low high = .ok ((low + high) / 2) := by
  simp only [Bounds.middle, Scalar.add_rat, Scalar.constant_rat, Int.cast_ofNat, Nat.cast_one,
    div_one, ok_bind]
  exact Scalar.div_rat two_ne_zero

/-- The mean of rationals is computed as it is. -/
theorem yields_mean (first : Rat) (rest : List Rat) :
    Yields False (fun t => True ∧ t = (first :: rest).sum / (first :: rest).length)
      (do Scalar.div (← Scalar.sum (first :: rest)) (Scalar.constant (rest.length + 1) 1)) := by
  have hcovers : ∀ q ∈ first :: rest, Scalar.Reading.rational.covers q := fun _ _ => trivial
  refine (Scalar.Reading.rational.yields_sum hcovers).bind ?_
  rintro total ⟨-, htotal⟩
  have hlength : (Scalar.constant (rest.length + 1) 1 : Rat) = (first :: rest).length := by
    simp
  rw [hlength, Scalar.div_rat (by simp; positivity)]
  refine yields_ok ⟨trivial, ?_⟩
  rw [show total = ((first :: rest).map id).sum from htotal, List.map_id]

/-- Over the rationals centers and their mean are computed as they are, too. -/
theorem measures_rational (mode : AlignMode) : Measures Scalar.Reading.rational mode := by
  by_cases h : mode.isEdge = true
  · exact measures_of_isEdge _ h
  · have hvalue (qs : List Rat) : qs.map Scalar.Reading.rational.value = qs := List.map_id qs
    cases mode with
    | center =>
      refine ⟨fun b _ => ?_, fun first rest _ => ?_⟩
      · rw [anchor, Bounds.centerX, middle_rat]
        exact yields_ok ⟨trivial, rfl⟩
      · rw [hvalue]
        exact yields_mean first rest
    | middle =>
      refine ⟨fun b _ => ?_, fun first rest _ => ?_⟩
      · rw [anchor, Bounds.centerY, middle_rat]
        exact yields_ok ⟨trivial, rfl⟩
      · rw [hvalue]
        exact yields_mean first rest
    | _ => exact absurd rfl h

/-- The bounds of an element give the anchor of the box that a reading has for it. -/
def IsAnchored (ρ : Scalar.Reading α) (mode : AlignMode) (e : Element α) : Prop :=
  Yields ρ.mayFail (fun b => anchorOf mode (b.map ρ.value) = anchorOf mode (e.box ρ) ∧
    Yields ρ.mayFail (fun a => ρ.covers a ∧ ρ.value a = anchorOf mode (e.box ρ)) (anchor mode b))
    e.bounds

theorem isAnchored_of_isMeasured {mode : AlignMode} (hmode : Measures ρ mode) {e : Element α}
    (h : e.IsMeasured ρ) : IsAnchored ρ mode e :=
  (Element.yields_bounds h).mono fun b ⟨hcovered, hbox⟩ =>
    ⟨congrArg (anchorOf mode) hbox, hbox ▸ hmode.anchor b hcovered⟩

/-- The edge that an element starts at is found from its place alone, if it has bounds. -/
theorem isAnchored_of_isPlaced {mode : AlignMode} (hmode : mode.isLeading = true) {e : Element α}
    (h : e.IsPlaced ρ) {b : Bounds α} (hb : e.bounds = .ok b) : IsAnchored ρ mode e := by
  have hedges : (ρ.covers b.left ∧ ρ.value b.left = (e.box ρ).left) ∧
      ρ.covers b.top ∧ ρ.value b.top = (e.box ρ).top := by
    obtain ⟨frame, body⟩ := e
    by_cases hline : body.kind = .line
    · cases body with
      | line line =>
        cases hb
        obtain ⟨hx2, hy2⟩ := h.ends line rfl
        exact ⟨ρ.min h.x hx2, ρ.min h.y hy2⟩
      | _ => cases hline
    · obtain ⟨_, _, -, -, rfl⟩ := (Element.bounds_box_eq_ok (e := ⟨frame, body⟩) hline).mp hb
      cases body with
      | line line => exact absurd rfl hline
      | _ => exact ⟨⟨h.x, rfl⟩, h.y, rfl⟩
  rw [IsAnchored, hb]
  cases mode with
  | left => exact yields_ok ⟨hedges.1.2, yields_ok hedges.1⟩
  | top => exact yields_ok ⟨hedges.2.2, yields_ok hedges.2⟩
  | _ => cases hmode

/-! ### The run -/

variable {elements : List (Element α)} {mode : AlignMode}

/-- The positions that a mode measures in elements. -/
def anchors (ρ : Scalar.Reading α) (mode : AlignMode) (elements : List (Element α)) : List Rat :=
  elements.map fun e => anchorOf mode (e.box ρ)

/-- An alignment slides each element by what its anchor lacks to the goal. -/
theorem yields_align_of (hmode : Measures ρ mode) (hcount : 2 ≤ elements.length)
    (helements : ∀ e ∈ elements, IsAnchored ρ mode e) {S : Rat → Element α → Element α → Prop}
    (hslide : ∀ e ∈ elements, ∀ goal delta, IsGoal mode (anchors ρ mode elements) goal →
      ρ.covers delta → ρ.value delta = goal - anchorOf mode (e.box ρ) →
      Yields ρ.mayFail (S goal e) (slide mode.horizontal e delta)) :
    Yields ρ.mayFail (fun result => ∃ goal, IsGoal mode (anchors ρ mode elements) goal ∧
        List.Forall₂ (S goal) elements result) (align elements mode) := by
  rw [align, if_neg (by omega)]
  refine (yields_mapM helements).bind fun boxes hboxes => ?_
  have hmem := (List.forall₂_and_left _ _).mpr ⟨fun e (he : e ∈ elements) => he, hboxes⟩
  have hmeasured : Yields ρ.mayFail (List.Forall₂ (fun e a => e ∈ elements ∧ ρ.covers a ∧
      ρ.value a = anchorOf mode (e.box ρ)) elements) (boxes.mapM (anchor mode)) :=
    yields_mapM_of_forall₂ hmem fun e b ⟨he, _, hanchor⟩ => hanchor.mono fun a ha => ⟨he, ha⟩
  refine hmeasured.bind fun measured h => ?_
  have hvalues : measured.map ρ.value = anchors ρ mode elements :=
    map_eq_of_forall₂ (h.imp fun _ _ h => h.2.2)
  cases measured with
  | nil => simp [h.length_eq] at hcount
  | cons first rest =>
    have hcovers : ∀ a ∈ first :: rest, ρ.covers a := fun a ha => by
      obtain ⟨e, -, -, hcovers, -⟩ := exists_of_forall₂ h.flip a ha
      exact hcovers
    refine (hmode.target first rest hcovers).bind fun goal hgoal => ?_
    rw [hvalues] at hgoal
    -- Each element is paired with its anchor.
    have hzip : List.Forall₂ (fun e p => p.1 = e ∧ e ∈ elements ∧ ρ.covers p.2 ∧
        ρ.value p.2 = anchorOf mode (e.box ρ)) elements (elements.zip (first :: rest)) :=
      forall₂_zip h
    refine (yields_mapM_of_forall₂ (S := S (ρ.value goal)) hzip ?_).mono
      fun result hresult => ⟨_, hgoal.2, hresult⟩
    rintro e ⟨o, a⟩ ⟨hoe, he, ha, hvalue⟩
    obtain rfl : o = e := hoe
    refine (ρ.sub hgoal.1 ha).bind fun delta hdelta => ?_
    rw [hvalue] at hdelta
    exact hslide o he _ delta hgoal.2 hdelta.1 hdelta.2

/-- The anchor of an element that was slid is as far further on. -/
theorem IsSlid.anchorOf_eq {delta : Rat} {e moved : Element α}
    (h : IsSlid ρ mode.horizontal delta e moved) :
    anchorOf mode (moved.box ρ) = anchorOf mode (e.box ρ) + delta := by
  rw [Element.IsMoved.box_eq h]
  cases mode with
  | left | right | top | bottom => rfl
  | center | middle =>
    simp only [AlignMode.horizontal, anchorOf, Bounds.shifted, if_true, if_false,
      Bool.false_eq_true]
    ring

/-- What an alignment asks of an element: its anchor can be found, and it can be slid. -/
structure IsAlignable (ρ : Scalar.Reading α) (mode : AlignMode) (e : Element α) : Prop where
  isAnchored : IsAnchored ρ mode e
  isPlaced : e.IsPlaced ρ
  spans : e.Spans

/-- An alignment brings the anchors of all elements to the goal. -/
theorem yields_align (hmode : Measures ρ mode) (hcount : 2 ≤ elements.length)
    (helements : ∀ e ∈ elements, IsAlignable ρ mode e) :
    Yields ρ.mayFail (fun result => ∃ goal, IsGoal mode (anchors ρ mode elements) goal ∧
        List.Forall₂ (fun e moved => e ∈ elements ∧
          IsSlid ρ mode.horizontal (goal - anchorOf mode (e.box ρ)) e moved) elements result)
      (align elements mode) := by
  refine yields_align_of hmode hcount (fun e he => (helements e he).isAnchored) ?_
  intro e he goal delta _ hdelta hvalue
  obtain ⟨-, hplaced, hspans⟩ := helements e he
  rw [← hvalue]
  exact (yields_slide hplaced hspans hdelta _).mono fun _ h => ⟨he, h⟩

/-- An alignment of elements that have one anchor changes nothing. -/
theorem yields_align_self (hmode : Measures ρ mode) (hcount : 2 ≤ elements.length)
    (helements : ∀ e ∈ elements, IsAnchored ρ mode e) {a : Rat}
    (ha : ∀ e ∈ elements, anchorOf mode (e.box ρ) = a) :
    Yields ρ.mayFail (fun result => result = elements) (align elements mode) := by
  refine (yields_align_of hmode hcount helements (S := fun _ e moved => e = moved) ?_).mono ?_
  · intro e he goal delta hgoal hdelta hvalue
    -- The goal is the one anchor, so there is nowhere to go.
    have hne : anchors ρ mode elements ≠ [] := by
      rw [anchors, ne_eq, List.map_eq_nil_iff]
      rintro rfl
      simp at hcount
    have hall : ∀ p ∈ anchors ρ mode elements, p = a := by
      rintro _ hp
      obtain ⟨o, ho, rfl⟩ := List.mem_map.mp hp
      exact ha o ho
    rw [hgoal.eq_of_forall_eq hne hall, ha e he, sub_self] at hvalue
    rw [slide_eq_self hdelta hvalue]
    exact yields_ok rfl
  · rintro result ⟨-, -, h⟩
    rw [List.forall₂_eq_eq_eq] at h
    exact h.symm

/-! ### Other orders -/

/-- The order of positions has no part in their goal. -/
theorem IsGoal.eq_of_perm {positions positions' : List Rat} {goal goal' : Rat}
    (h : IsGoal mode positions goal) (h' : IsGoal mode positions' goal')
    (hperm : positions'.Perm positions) : goal' = goal := by
  cases mode with
  | left | top =>
    obtain ⟨hmem, hle⟩ := List.min?_eq_some_iff.mp h
    obtain ⟨hmem', hle'⟩ := List.min?_eq_some_iff.mp h'
    exact le_antisymm (hle' goal (hperm.mem_iff.mpr hmem)) (hle goal' (hperm.mem_iff.mp hmem'))
  | right | bottom =>
    obtain ⟨hmem, hle⟩ := List.max?_eq_some_iff.mp h
    obtain ⟨hmem', hle'⟩ := List.max?_eq_some_iff.mp h'
    exact le_antisymm (hle goal' (hperm.mem_iff.mp hmem')) (hle' goal (hperm.mem_iff.mpr hmem))
  | center | middle =>
    rw [show goal = _ from h, show goal' = _ from h', hperm.sum_eq, hperm.length_eq]

/-- A single element stays where it is. -/
theorem align_of_length_lt (hcount : elements.length < 2) (mode : AlignMode) :
    align elements mode = .ok elements := by
  rw [align, if_pos hcount]
  rfl

/-- Elements in another order are aligned to the same elements, in another order. -/
theorem align_perm (hfaithful : ρ.IsFaithful) (htotal : ¬ ρ.mayFail) (hmode : Measures ρ mode)
    (helements : ∀ e ∈ elements, IsAlignable ρ mode e) {elements' : List (Element α)}
    (hperm : elements'.Perm elements) :
    ∃ result result', align elements mode = .ok result ∧ align elements' mode = .ok result' ∧
      result'.Perm result := by
  by_cases hcount : elements.length < 2
  · exact ⟨elements, elements', align_of_length_lt hcount mode,
      align_of_length_lt (hperm.length_eq ▸ hcount) mode, hperm⟩
  · have hcount' : 2 ≤ elements'.length := by
      rw [hperm.length_eq]
      omega
    obtain ⟨result, hresult, goal, hgoal, hslid⟩ :=
      (yields_align hmode (by omega) helements).exists_ok htotal
    obtain ⟨result', hresult', goal', hgoal', hslid'⟩ :=
      (yields_align hmode hcount' fun e he => helements e (hperm.mem_iff.mp he)).exists_ok htotal
    obtain rfl := hgoal.eq_of_perm hgoal' (hperm.map _)
    -- How far an element is slid is a matter of the goal and the element itself.
    have hunique : Relator.RightUnique fun e moved =>
        IsSlid ρ mode.horizontal (goal' - anchorOf mode (e.box ρ)) e moved :=
      fun _ _ _ h h' => Element.IsMoved.unique hfaithful h h'
    exact ⟨result, result', hresult, hresult', List.rel_perm_imp hunique
      (hslid'.imp fun _ _ h => h.2) (hslid.imp fun _ _ h => h.2) hperm⟩

/-- Two runs give the same elements, in another order perhaps, or fail alike. -/
def Reorders (x y : Except Fault (List (Element α))) : Prop :=
  (∃ xs ys, x = .ok xs ∧ y = .ok ys ∧ ys.Perm xs) ∨ ∃ f, x = .error f ∧ y = .error f

/-! ### Aligned elements -/

/-- What an alignment promises of elements, whose boxes are read as a reading has them and each
of which it slides in a way of its own. -/
def LinesUpBy (ρ : Scalar.Reading α) (mode : AlignMode)
    (Slides : Element α → Element α → Prop) (elements : List (Element α)) : Prop :=
  ∃ boxes result aligned goal, elements.mapM Element.bounds = .ok boxes ∧
    align elements mode = .ok result ∧ result.mapM Element.bounds = .ok aligned ∧
    IsGoal mode (boxes.map fun b => anchorOf mode (b.map ρ.value)) goal ∧
    (∀ b ∈ aligned, anchorOf mode (b.map ρ.value) = goal) ∧
    List.Forall₂ Slides elements result ∧ align result mode = .ok result

/-- Elements are lined up and slid along the axis of the mode. -/
def LinesUp (ρ : Scalar.Reading α) (mode : AlignMode) (elements : List (Element α)) : Prop :=
  LinesUpBy ρ mode (SlidesAlong mode.horizontal) elements

/-- Elements that can be aligned are lined up, if those that they are slid to have anchors. -/
theorem linesUpBy_of_isAlignable (htotal : ¬ ρ.mayFail) (hmode : Measures ρ mode)
    (hcount : 2 ≤ elements.length) (helements : ∀ e ∈ elements, IsAlignable ρ mode e)
    {Slides : Element α → Element α → Prop}
    (hslides : ∀ goal, IsGoal mode (anchors ρ mode elements) goal → ∀ e ∈ elements, ∀ moved,
      IsSlid ρ mode.horizontal (goal - anchorOf mode (e.box ρ)) e moved →
      IsAnchored ρ mode moved ∧ Slides e moved) :
    LinesUpBy ρ mode Slides elements := by
  obtain ⟨result, hresult, goal, hgoal, hslid⟩ :=
    (yields_align hmode hcount helements).exists_ok htotal
  have hmoved : ∀ moved ∈ result, IsAnchored ρ mode moved ∧
      anchorOf mode (moved.box ρ) = goal := by
    intro moved hmoved
    obtain ⟨e, -, he, hslide⟩ := exists_of_forall₂ hslid.flip moved hmoved
    refine ⟨(hslides goal hgoal e he moved hslide).1, ?_⟩
    rw [hslide.anchorOf_eq, add_sub_cancel]
  obtain ⟨boxes, hboxes, hbefore⟩ :=
    (yields_mapM fun e he => (helements e he).isAnchored).exists_ok htotal
  obtain ⟨aligned, haligned, hafter⟩ :=
    (yields_mapM fun e he => (hmoved e he).1).exists_ok htotal
  refine ⟨boxes, result, aligned, goal, hboxes, hresult, haligned, ?_, ?_, ?_, ?_⟩
  · have hanchors : (boxes.map fun b => anchorOf mode (b.map ρ.value)) = anchors ρ mode elements :=
      map_eq_of_forall₂ (hbefore.imp fun _ _ h => h.1)
    rwa [hanchors]
  · intro b hb
    obtain ⟨moved, hmem, hanchor, -⟩ := exists_of_forall₂ hafter.flip b hb
    exact hanchor.trans (hmoved moved hmem).2
  · exact hslid.imp fun e moved ⟨he, hslide⟩ => (hslides goal hgoal e he moved hslide).2
  · obtain ⟨_, hagain, rfl⟩ := (yields_align_self hmode (hslid.length_eq ▸ hcount)
      (fun e he => (hmoved e he).1) fun e he => (hmoved e he).2).exists_ok htotal
    exact hagain

theorem isAlignable_of_isMeasured (hmode : Measures ρ mode) {e : Element α}
    (h : e.IsMeasured ρ ∧ e.Spans) : IsAlignable ρ mode e :=
  ⟨isAnchored_of_isMeasured hmode h.1, h.1.toIsPlaced, h.2⟩

theorem linesUp_of_measures (hfaithful : ρ.IsFaithful) (htotal : ¬ ρ.mayFail)
    (hmode : Measures ρ mode) (hcount : 2 ≤ elements.length)
    (helements : ∀ e ∈ elements, e.IsMeasured ρ ∧ e.Spans) : LinesUp ρ mode elements := by
  refine linesUpBy_of_isAlignable htotal hmode hcount
    (fun e he => isAlignable_of_isMeasured hmode (helements e he)) ?_
  intro _ _ e he moved hslide
  obtain ⟨hmeasured, hspans⟩ := helements e he
  exact ⟨isAnchored_of_isMeasured hmode (Element.IsMoved.isMeasured hslide hmeasured),
    hslide.slidesAlong hfaithful htotal hmeasured hspans⟩

/-- A rational covers any element. -/
theorem isMeasured_rational (e : Element Rat) : e.IsMeasured Scalar.Reading.rational :=
  ⟨⟨trivial, trivial, fun _ _ => ⟨trivial, trivial⟩⟩, trivial, trivial⟩

/-! ### Whole places -/

section

open Scalar.Reading (integer isFaithful_integer)

variable {elements : List (Element Number)}

theorem isAlignable_of_isPlaced (hmode : mode.isLeading = true) {e : Element Number}
    (hplaced : e.IsPlaced integer) (hspans : e.Spans) (hbounds : ∃ b, e.bounds = .ok b) :
    IsAlignable integer mode e := by
  obtain ⟨b, hb⟩ := hbounds
  exact ⟨isAnchored_of_isPlaced hmode hplaced hb, hplaced, hspans⟩

/-- An element without bounds is not aligned with others. -/
theorem align_of_not_bounds (hcount : 2 ≤ elements.length) {e : Element Number}
    (he : e ∈ elements) (hno : ¬ ∃ b, e.bounds = .ok b) (mode : AlignMode) :
    align elements mode = .error .tooLarge := by
  rw [align, if_neg (by omega)]
  cases hboxes : elements.mapM Element.bounds with
  | ok boxes => exact absurd (exists_mapM_iff.mp ⟨boxes, hboxes⟩ e he) hno
  | error f =>
    rw [failsWith_mapM (fun o _ => o.failsWith_bounds) f hboxes]
    rfl

theorem align_perm_leading (hmode : mode.isLeading = true)
    (helements : ∀ e ∈ elements, e.IsPlaced integer ∧ e.Spans)
    (hbounds : ∀ e ∈ elements, ∃ b, e.bounds = .ok b) {elements' : List (Element Number)}
    (hperm : elements'.Perm elements) :
    ∃ result result', align elements mode = .ok result ∧ align elements' mode = .ok result' ∧
      result'.Perm result := by
  refine align_perm isFaithful_integer not_false
    (measures_of_isEdge _ (AlignMode.isEdge_of_isLeading hmode)) (fun e he => ?_) hperm
  obtain ⟨hplaced, hspans⟩ := helements e he
  exact isAlignable_of_isPlaced hmode hplaced hspans (hbounds e he)

/-- By the edges that they start at, elements at whole places are aligned in any order to the same
elements, or fail to be in any order. -/
theorem reorders_align (hmode : mode.isLeading = true)
    (helements : ∀ e ∈ elements, e.IsPlaced integer ∧ e.Spans) {elements' : List (Element Number)}
    (hperm : elements'.Perm elements) :
    Reorders (align elements mode) (align elements' mode) := by
  by_cases hbounds : ∀ e ∈ elements, ∃ b, e.bounds = .ok b
  · exact .inl (align_perm_leading hmode helements hbounds hperm)
  · simp only [not_forall] at hbounds
    obtain ⟨e, he, hno⟩ := hbounds
    by_cases hcount : elements.length < 2
    · exact .inl ⟨elements, elements', align_of_length_lt hcount mode,
        align_of_length_lt (hperm.length_eq ▸ hcount) mode, hperm⟩
    · have hcount' : 2 ≤ elements'.length := by
        rw [hperm.length_eq]
        omega
      exact .inr ⟨_, align_of_not_bounds (by omega) he hno mode,
        align_of_not_bounds hcount' (hperm.mem_iff.mpr he) hno mode⟩

/-- The edge that an element of whole coordinates starts at is a whole one of them. -/
theorem exists_isWhole_anchorOf (hmode : mode.isLeading = true) {e : Element Number}
    (h : e.IsWhole) :
    ∃ a : Number, a.IsWhole ∧ a.value = anchorOf mode (e.box integer) := by
  have hedge {x x2 : Number} (hx : x.IsWhole) (hx2 : x2.IsWhole) :
      ∃ a : Number, a.IsWhole ∧ a.value = min x.value x2.value :=
    ⟨_, hx.min hx2, (integer.min hx.covers_integer hx2.covers_integer).2⟩
  obtain ⟨frame, body⟩ := e
  cases mode with
  | left =>
    cases body with
    | line line => exact hedge h.x (h.ends line rfl).1
    | _ => exact ⟨_, h.x, rfl⟩
  | top =>
    cases body with
    | line line => exact hedge h.y (h.ends line rfl).2
    | _ => exact ⟨_, h.y, rfl⟩
  | _ => cases hmode

/-- The least of the edges that elements of whole coordinates start at is a whole number, too. -/
theorem exists_isWhole_goal (hmode : mode.isLeading = true)
    (helements : ∀ e ∈ elements, e.IsWhole) {goal : Rat}
    (hgoal : IsGoal mode (anchors integer mode elements) goal) :
    ∃ a : Number, a.IsWhole ∧ a.value = goal := by
  have hmem : goal ∈ anchors integer mode elements := by
    cases mode with
    | left | top => exact (List.min?_eq_some_iff.mp hgoal).1
    | _ => cases hmode
  obtain ⟨e, he, rfl⟩ := List.mem_map.mp hmem
  exact exists_isWhole_anchorOf hmode (helements e he)

/-- An element of whole coordinates that is slid to start at a whole number has bounds there. -/
theorem exists_bounds_of_isSlid (hmode : mode.isLeading = true) {e moved : Element Number}
    (h : e.IsWhole) {a : Number} (ha : a.IsWhole)
    (hslide : IsSlid integer mode.horizontal (a.value - anchorOf mode (e.box integer)) e moved) :
    ∃ b, moved.bounds = .ok b := by
  have hplaced := h.isPlaced
  cases hslide with
  | line => exact ⟨_, rfl⟩
  | @box frame body x y hbody hx hy =>
    -- A box starts at its origin: the one coordinate becomes `a`, and the other one stays.
    have hgoal {old new : Number} (hnew : integer.IsShifted (a.value - old.value) old new) :
        new = a :=
      isFaithful_integer hnew.1 ha.covers_integer (by rw [hnew.2]; exact add_sub_cancel _ _)
    refine Element.exists_bounds_box hbody ?_ ?_
    · cases mode with
      | left =>
        have hold : anchorOf .left (Element.box integer ⟨frame, body⟩) = frame.x.value := by
          cases body <;> first | rfl | exact absurd rfl hbody
        rw [hold] at hx
        exact hgoal hx ▸ ha
      | top => exact hx.eq isFaithful_integer hplaced.x ▸ h.x
      | _ => cases hmode
    · cases mode with
      | left => exact hy.eq isFaithful_integer hplaced.y ▸ h.y
      | top =>
        have hold : anchorOf .top (Element.box integer ⟨frame, body⟩) = frame.y.value := by
          cases body <;> first | rfl | exact absurd rfl hbody
        rw [hold] at hy
        exact hgoal hy ▸ ha
      | _ => cases hmode

/-- Elements of whole coordinates are lined up by the edges that they start at, whatever their
extents are. -/
theorem linesUpBy_of_isWhole (hmode : mode.isLeading = true) (hcount : 2 ≤ elements.length)
    (helements : ∀ e ∈ elements, e.IsWhole ∧ e.Spans) :
    LinesUpBy integer mode (StaysAcross mode.horizontal) elements := by
  refine linesUpBy_of_isAlignable not_false
    (measures_of_isEdge _ (AlignMode.isEdge_of_isLeading hmode)) hcount (fun e he => ?_) ?_
  · obtain ⟨hwhole, hspans⟩ := helements e he
    exact isAlignable_of_isPlaced hmode hwhole.isPlaced hspans hwhole.exists_bounds
  · intro goal hgoal e he moved hslide
    obtain ⟨hwhole, hspans⟩ := helements e he
    obtain ⟨a, ha, rfl⟩ := exists_isWhole_goal hmode (fun o ho => (helements o ho).1) hgoal
    obtain ⟨b, hb⟩ := hwhole.exists_bounds
    obtain ⟨b', hb'⟩ := exists_bounds_of_isSlid hmode hwhole ha hslide
    exact ⟨isAnchored_of_isPlaced hmode (Element.IsMoved.isPlaced hslide) hb',
      hslide.staysAcross isFaithful_integer not_false hwhole.isPlaced hspans hb hb'⟩

end

/-- Aligned elements share an edge, or a center. Over the rationals, whatever the mode, the
elements are slid along its axis until the position that it lines up is the goal in every
box: the outermost edge of all, or the mean of all centers. Sliding leaves all else as it was,
the order of the elements too, and aligned elements are aligned as they are.

Where the coordinates are integers and the mode lines up an edge, the same holds of the numbers
of a design. For the left and the top edge, to which no extent is added, the extents may be any
numbers if the coordinates are no integers too large for a double; the far edges of the boxes are
then rounded. -/
theorem align_linesUp (mode : AlignMode) :
    (∀ elements : List (Element Rat), 2 ≤ elements.length → (∀ e ∈ elements, e.Spans) →
      LinesUp Scalar.Reading.rational mode elements) ∧
    (mode.isEdge = true → ∀ elements : List (Element Number), 2 ≤ elements.length →
      (∀ e ∈ elements, e.IsMeasured Scalar.Reading.integer ∧ e.Spans) →
      LinesUp Scalar.Reading.integer mode elements) ∧
    (mode.isLeading = true → ∀ elements : List (Element Number), 2 ≤ elements.length →
      (∀ e ∈ elements, e.IsWhole ∧ e.Spans) →
      LinesUpBy Scalar.Reading.integer mode (StaysAcross mode.horizontal) elements) := by
  refine ⟨fun elements hcount hspans => ?_, fun hedge elements hcount helements => ?_,
    fun hleading elements hcount helements => ?_⟩
  · exact linesUp_of_measures Scalar.Reading.isFaithful_rational id (measures_rational mode) hcount
      fun e he => ⟨isMeasured_rational e, hspans e he⟩
  · exact linesUp_of_measures Scalar.Reading.isFaithful_integer id
      (measures_of_isEdge _ hedge) hcount helements
  · exact linesUpBy_of_isWhole hleading hcount helements

/-- A picture and a line that both run to the left, and a shape. -/
def leftward (α : Type) [Scalar α] : List (Element α) :=
  let n (k : Int) : α := Scalar.ofInt k
  [⟨⟨"picture", n 30, n 10, n (-10), n 20, n 0, .bool false, .bool true⟩,
      .image ⟨"/a.png", .contain⟩⟩,
    ⟨⟨"rule", n 45, n 60, n 25, n 50, n 0, .null, .bool true⟩,
      .line {
        x2 := n 20, y2 := n 10, stroke := "#000000", strokeWidth := n 2
        strokeStyle := .solid }⟩,
    ⟨⟨"frame", n 5, n 40, n 50, n 15, n 0, .null, .bool true⟩,
      .shape ⟨.rectangle, "transparent", "#000000", n 2, n 0⟩⟩]

/-- Two pictures at whole places, with extents that are none. -/
def fractional : List (Element Number) :=
  [⟨⟨"wide", .int 30, .int 10, .fraction 251 10, .fraction 1 3, .int 0, .bool false, .bool true⟩,
      .image ⟨"/a.png", .contain⟩⟩,
    ⟨⟨"tall", .int 5, .int 40, .fraction 1 7, .fraction 251 10, .int 0, .bool false, .bool true⟩,
      .image ⟨"/a.png", .contain⟩⟩]

/-- The centers of the three are brought to the mean of 25, 65/2 and 30, and their right edges to
55. The left edges of the two pictures are brought to 5. -/
theorem align_linesUp_leftward :
    (2 ≤ (leftward Rat).length ∧ (∀ e ∈ leftward Rat, e.Spans) ∧
      LinesUp Scalar.Reading.rational .center (leftward Rat)) ∧
    (AlignMode.right.isEdge = true ∧ 2 ≤ (leftward Number).length ∧
      (∀ e ∈ leftward Number, e.IsMeasured Scalar.Reading.integer ∧ e.Spans) ∧
      LinesUp Scalar.Reading.integer .right (leftward Number)) ∧
    AlignMode.left.isLeading = true ∧ 2 ≤ fractional.length ∧
      (∀ e ∈ fractional, e.IsWhole ∧ e.Spans) ∧
      LinesUpBy Scalar.Reading.integer .left (StaysAcross true) fractional := by
  have hrational : ∀ e ∈ leftward Rat, e.Spans := by
    intro e he
    simp only [leftward, List.mem_cons, List.not_mem_nil, or_false] at he
    rcases he with rfl | rfl | rfl <;> rintro line hline <;> cases hline
    decide +kernel
  have hinteger : ∀ e ∈ leftward Number, e.IsMeasured Scalar.Reading.integer ∧ e.Spans := by
    intro e he
    simp only [leftward, List.mem_cons, List.not_mem_nil, or_false] at he
    rcases he with rfl | rfl | rfl
    all_goals
      refine ⟨⟨⟨⟨_, rfl⟩, ⟨_, rfl⟩, ?_⟩, ⟨_, rfl⟩, ⟨_, rfl⟩⟩, ?_⟩ <;>
        rintro line hline <;> cases hline
    · exact ⟨⟨_, rfl⟩, ⟨_, rfl⟩⟩
    · rfl
  have hwhole (n : Nat) (hn : n < 64) : (Number.int n).IsWhole :=
    ⟨n, rfl, Nat.lt_trans hn (by decide +kernel)⟩
  have hfractional : ∀ e ∈ fractional, e.IsWhole ∧ e.Spans := by
    simp only [fractional, List.forall_mem_cons]
    refine ⟨⟨⟨hwhole 30 (by decide), hwhole 10 (by decide), ?_⟩, ?_⟩,
      ⟨⟨hwhole 5 (by decide), hwhole 40 (by decide), ?_⟩, ?_⟩, List.forall_mem_nil _⟩ <;>
      rintro line ⟨⟩
  have htwo : 2 ≤ 3 := by decide
  exact ⟨⟨htwo, hrational, (align_linesUp .center).1 _ htwo hrational⟩,
    ⟨rfl, htwo, hinteger, (align_linesUp .right).2.1 rfl _ htwo hinteger⟩,
    rfl, Nat.le_refl 2, hfractional, (align_linesUp .left).2.2 rfl _ (Nat.le_refl 2) hfractional⟩

end Geometry

end LabelLayout
