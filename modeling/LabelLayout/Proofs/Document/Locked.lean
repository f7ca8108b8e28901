import LabelLayout.Proofs.Document.Session
import Mathlib.Data.List.Nodup

/-!
# `LabelLayout.Proofs.Document.Locked`: what arranging a label leaves alone

A move, an alignment and a distribution reach the elements of a document in three ways:
a look at one element, a selection of those that may move, and a replacement by id.
`Document.Rearranges` says what they have in common: every element stays at its place
of the paint order, and one that is locked or not named stays as it is.

The other arranging edits add elements, change the paint order or touch none. So what is
locked outlasts every run of arranging edits, whatever their arguments and whether or not
they fail (`Session.locked_mem_of_run`).
-/

set_option autoImplicit false

namespace LabelLayout

open Issuing

/-! ### Ids -/

section

variable {α : Type}

variable [Scalar α]

/-- A shift leaves the id alone. -/
theorem Element.id_of_shift {e shifted : Element α} {dx dy : α}
    (h : e.shift dx dy = .ok shifted) : shifted.id = e.id := by
  unfold Element.shift at h
  simp only [bind_eq_ok] at h
  obtain ⟨x, -, y, -, h⟩ := h
  -- The frame of a line is derived anew, from one that has the id already.
  cases hbody : e.body with
  | line line =>
    simp only [hbody, Frame.spanning, bind_eq_ok, pure_eq_ok] at h
    obtain ⟨x2, -, y2, -, frame, ⟨width, -, height, -, rfl⟩, rfl⟩ := h
    rfl
  | _ =>
    simp only [hbody, pure_eq_ok] at h
    rw [← h]
    rfl

theorem Element.id_of_translate {e moved : Element α} {dx dy : α}
    (h : e.translate dx dy = .ok moved) : moved.id = e.id := by
  unfold Element.translate at h
  split at h
  · cases h
    rfl
  · exact id_of_shift h

namespace Geometry

theorem id_of_slide {horizontal : Bool} {e moved : Element α} {delta : α}
    (h : slide horizontal e delta = .ok moved) : moved.id = e.id := by
  unfold slide at h
  split at h <;> exact Element.id_of_translate h

variable {elements result : List (Element α)}

/-- Aligned elements have the ids of those that they were, in the same order. -/
theorem ids_of_align {mode : AlignMode} (h : align elements mode = .ok result) :
    result.map Element.id = elements.map Element.id := by
  simp only [align] at h
  split at h
  · cases h
    rfl
  · simp only [bind_eq_ok] at h
    obtain ⟨bounds, hbounds, anchors, hanchors, h⟩ := h
    have hlength : anchors.length = elements.length :=
      (mapM_eq_ok.mp hanchors).length_eq.symm.trans (mapM_eq_ok.mp hbounds).length_eq.symm
    split at h
    · cases h
      rfl
    · obtain ⟨goal, -, h⟩ := bind_eq_ok.mp h
      have hids := map_eq_of_mapM (g := Element.id) (k := fun p => p.1.id) h
        fun p _ moved hmoved => by
          obtain ⟨e, a⟩ := p
          obtain ⟨delta, -, hslide⟩ := bind_eq_ok.mp hmoved
          exact id_of_slide hslide
      rw [hids]
      show (elements.zip _).map (Element.id ∘ Prod.fst) = _
      rw [← List.map_map, List.map_fst_zip (Nat.le_of_eq hlength.symm)]

/-- So have distributed elements. -/
theorem ids_of_distribute {direction : Direction}
    (h : distribute elements direction = .ok result) :
    result.map Element.id = elements.map Element.id := by
  simp only [distribute] at h
  split at h
  · cases h
    rfl
  · simp only [bind_eq_ok] at h
    obtain ⟨bounds, -, segments, -, h⟩ := h
    split at h
    · obtain ⟨between, -, h⟩ := bind_eq_ok.mp h
      obtain ⟨places, -, h⟩ := bind_eq_ok.mp h
      obtain ⟨deltas, -, h⟩ := bind_eq_ok.mp h
      have hids := map_eq_of_mapM (g := Element.id) (k := fun p => p.1.id) h
        fun p _ moved hmoved => by
          obtain ⟨e, i⟩ := p
          simp only at hmoved
          split at hmoved
          · exact id_of_slide hmoved
          · cases hmoved
            rfl
      rw [hids]
      show elements.zipIdx.map (Element.id ∘ Prod.fst) = _
      rw [← List.map_map, List.zipIdx_map_fst]
    · cases h
      rfl

end Geometry

/-! ### Moves, alignment and distribution -/

namespace Document

/-- `after` has an element in the place of each element of `before`, under its id. Only
those with an id in `names` that are not locked may have changed. -/
def Rearranges (names : List String) (before after : Document α) : Prop :=
  List.Forall₂ (fun e e' => e'.id = e.id ∧ ((e.id ∈ names → e.isLocked = true) → e' = e))
    before.elements after.elements

variable {names : List String} {d result : Document α}

theorem Rearranges.refl (names : List String) (d : Document α) : d.Rearranges names d :=
  List.forall₂_same.mpr fun _ _ => ⟨rfl, fun _ => rfl⟩

/-- The paint order is what it was. -/
theorem Rearranges.ids_eq (h : d.Rearranges names result) : result.ids = d.ids :=
  map_eq_of_forall₂ (h.imp fun _ _ h => h.1)

/-- What is locked or not named is where it was. -/
theorem Rearranges.getElem? (h : d.Rearranges names result) {i : Nat} {e : Element α}
    (he : d.elements[i]? = some e) (hkept : e.id ∈ names → e.isLocked = true) :
    result.elements[i]? = some e := by
  obtain ⟨hi, rfl⟩ := List.getElem?_eq_some_iff.mp he
  have hi' : i < result.elements.length := h.length_eq ▸ hi
  have hpair := h.get hi hi'
  rw [List.getElem?_eq_getElem hi']
  exact congrArg some (hpair.2 hkept)

/-- Elements that stand for named ones that are not locked are put in their places. -/
theorem rearranges_replaceElements (hids : d.ids.Nodup) {updated : List (Element α)}
    (hupdated : ∀ u ∈ updated, ∃ o ∈ d.elements, o.id = u.id ∧ o.id ∈ names ∧ o.isLocked = false) :
    d.Rearranges names (d.replaceElements updated) := by
  show List.Forall₂ _ d.elements (d.elements.map _)
  rw [List.forall₂_map_right_iff, List.forall₂_same]
  intro e he
  cases hfind : updated.reverse.find? (fun u => u.id == e.id) with
  | none => exact ⟨rfl, fun _ => rfl⟩
  | some u =>
    have huid : u.id = e.id := by simpa using List.find?_some hfind
    obtain ⟨o, ho, hoid, hnamed, hfree⟩ :=
      hupdated u (List.mem_reverse.mp (List.mem_of_find?_eq_some hfind))
    -- Only one element has the id, so the element that is replaced is free to move.
    obtain rfl : e = o := eq_of_id_eq hids he ho (huid.symm.trans hoid.symm)
    refine ⟨huid, fun hkept => ?_⟩
    rw [hkept hnamed] at hfree
    cases hfree

/-- A move by numbers takes an element that is free to where it comes to lie. -/
theorem moveBy_of_mem (hids : d.ids.Nodup) {e : Element α} (he : e ∈ d.elements)
    (hfree : e.isLocked = false) (dx dy : α) :
    d.moveBy e.id (.num dx) (.num dy) = (do
      let x ← Scalar.add e.frame.x dx
      let y ← Scalar.add e.frame.y dy
      d.moveTo e x y) := by
  rw [moveBy, find?_of_mem hids he]
  simp only [hfree, Bool.false_eq_true, if_false]
  rfl

theorem rearranges_of_moveTo (hids : d.ids.Nodup) {e : Element α} (he : e ∈ d.elements)
    (hfree : e.isLocked = false) {x y : α} (h : d.moveTo e x y = .ok result) :
    d.Rearranges [e.id] result := by
  simp only [moveTo, bind_eq_ok, pure_eq_ok] at h
  obtain ⟨x', -, y', -, dx, -, dy, -, moved, hmoved, rfl⟩ := h
  refine rearranges_replaceElements hids fun u hu => ?_
  rw [List.mem_singleton.mp hu]
  exact ⟨e, he, (Element.id_of_translate hmoved).symm, List.mem_singleton.mpr rfl, hfree⟩

/-- A move changes the place of its element, unless that is locked. -/
theorem rearranges_of_moveBy (hids : d.ids.Nodup) {id : String} {dx dy : Value α}
    (h : d.moveBy id dx dy = .ok result) : d.Rearranges [id] result := by
  unfold moveBy at h
  split at h
  · cases h
    exact .refl _ _
  · next e hfind =>
    have he : e ∈ d.elements := List.mem_of_find?_eq_some hfind
    have hid : e.id = id := by simpa using List.find?_some hfind
    split at h
    · cases h
      exact .refl _ _
    · next hfree =>
      simp only [bind_eq_ok] at h
      obtain ⟨x₀, -, x, -, y₀, -, y, -, h⟩ := h
      rw [← hid]
      exact rearranges_of_moveTo hids he (by simpa using hfree) h

/-- Elements with the ids of those that may move stand for named ones that are not locked. -/
theorem rearranges_of_movable (hids : d.ids.Nodup) {updated : List (Element α)}
    (h : updated.map Element.id = (d.movable names).map Element.id) :
    d.Rearranges names (d.replaceElements updated) := by
  refine rearranges_replaceElements hids fun u hu => ?_
  have hmem : u.id ∈ (d.movable names).map Element.id := h ▸ List.mem_map_of_mem hu
  obtain ⟨o, ho, hoid⟩ := List.mem_map.mp hmem
  obtain ⟨hod, hmay⟩ := List.mem_filter.mp ho
  simp only [Bool.and_eq_true, List.contains_iff_mem, Bool.not_eq_true'] at hmay
  exact ⟨o, hod, hoid, hmay.1, hmay.2⟩

theorem rearranges_of_align (hids : d.ids.Nodup) {mode : AlignMode}
    (h : d.align names mode = .ok result) : d.Rearranges names result := by
  obtain ⟨moved, hmoved, h⟩ := bind_eq_ok.mp h
  cases h
  exact rearranges_of_movable hids (Geometry.ids_of_align hmoved)

theorem rearranges_of_distribute (hids : d.ids.Nodup) {direction : Direction}
    (h : d.distribute names direction = .ok result) : d.Rearranges names result := by
  obtain ⟨moved, hmoved, h⟩ := bind_eq_ok.mp h
  cases h
  exact rearranges_of_movable hids (Geometry.ids_of_distribute hmoved)

/-! ### What is locked -/

/-- Ids are distinct in `after`, and what is locked in `before` is in it as it was. -/
structure SparesLocked (before after : Document α) : Prop where
  ids : after.ids.Nodup
  locked : ∀ e ∈ before.elements, e.isLocked = true → e ∈ after.elements

theorem SparesLocked.refl (hids : d.ids.Nodup) : d.SparesLocked d := ⟨hids, fun _ he _ => he⟩

theorem SparesLocked.trans {before between after : Document α} (h : before.SparesLocked between)
    (h' : between.SparesLocked after) : before.SparesLocked after :=
  ⟨h'.ids, fun e he hlocked => h'.locked e (h.locked e he hlocked) hlocked⟩

theorem Rearranges.sparesLocked (hids : d.ids.Nodup) (h : d.Rearranges names result) :
    d.SparesLocked result := by
  refine ⟨h.ids_eq ▸ hids, fun e he hlocked => ?_⟩
  obtain ⟨i, hi⟩ := List.mem_iff_getElem?.mp he
  exact List.mem_of_getElem? (h.getElem? hi fun _ => hlocked)

end Document

end

namespace Document

variable {d result : Document Number}

/-- Elements on top of others leave them there. -/
theorem sparesLocked_of_withElements {more : List (Element Number)}
    (h : d.withElements (d.elements ++ more) = .ok result) : d.SparesLocked result := by
  obtain ⟨hids, rfl⟩ := make_eq_ok.mp h
  exact ⟨hids, fun e he _ => List.mem_append_left _ he⟩

/-- The same elements in another order are all still there. -/
theorem Restacks.sparesLocked (hids : d.ids.Nodup) {id : String} (h : d.Restacks id result) :
    d.SparesLocked result :=
  ⟨h.nodup hids, fun _ he _ => h.perm.mem_iff.mpr he⟩

/-- A copy is put on top. -/
theorem duplicate_sparesLocked (hids : d.ids.Nodup) (id : String) (offset : Datum) :
    Gives (d.duplicate id offset) d.SparesLocked := by
  unfold duplicate
  cases d.find? id with
  | none => exact gives_pure (.refl hids)
  | some e =>
    refine (gives_true _).bind fun copy _ => ?_
    exact gives_lift fun result h => sparesLocked_of_withElements h

theorem sparesLocked_of_withSettings (hids : d.ids.Nodup) {gridSize units : Datum}
    (h : d.withSettings gridSize units = .ok result) : d.SparesLocked result := by
  obtain ⟨settings, -, h⟩ := bind_eq_ok.mp h
  cases h
  exact ⟨hids, fun _ he _ => he⟩

end Document

/-! ### Sessions -/

namespace Edit

/-- The edits that move, add or reorder elements, or change what lies around them. The other
edits rewrite elements, drop them or put another document in the place of theirs. -/
def isArranging : Edit → Bool
  | .move .. | .align .. | .distribute .. | .add .. | .create .. | .duplicate ..
  | .bringToFront .. | .sendToBack .. | .setSize .. | .setStandardSize .. | .toggleGrid
  | .toggleRulers | .setGridSize .. | .setUnits .. | .applyTemplate _ true => true
  | _ => false

/-- The ids that a move, an alignment or a distribution names. -/
def moved? : Edit → Option (List String)
  | .move id _ _ => some [id]
  | .align ids _ | .distribute ids _ =>
    match idsOf ids with
    | .ok names => some names
    | .error _ => some []
  | _ => none

variable {d : Document Number}

/-- A move, an alignment and a distribution rearrange the elements that they name. -/
theorem apply_rearranges (hids : d.ids.Nodup) {edit : Edit} {names : List String}
    (h : edit.moved? = some names) : Gives (Edit.apply d edit) (d.Rearranges names) := by
  cases edit with
  | move id dx dy =>
    cases h
    exact gives_lift_fault fun result hmove => Document.rearranges_of_moveBy hids hmove
  | align ids mode =>
    refine (gives_lift fun _ h => h).bind fun found hfound => ?_
    simp only [moved?, hfound, Option.some.injEq] at h
    subst h
    refine (gives_lift fun _ _ => trivial).bind fun mode _ => ?_
    exact gives_lift_fault fun result halign => Document.rearranges_of_align hids halign
  | distribute ids direction =>
    refine (gives_lift fun _ h => h).bind fun found hfound => ?_
    simp only [moved?, hfound, Option.some.injEq] at h
    subst h
    refine (gives_lift fun _ _ => trivial).bind fun direction _ => ?_
    exact gives_lift_fault fun result hdistribute =>
      Document.rearranges_of_distribute hids hdistribute
  | _ => cases h

/-- Whatever an arranging edit does, it leaves what is locked alone. -/
theorem apply_sparesLocked (hids : d.ids.Nodup) {edit : Edit} (h : edit.isArranging = true) :
    Gives (Edit.apply d edit) d.SparesLocked := by
  have hmoves : ∀ names, edit.moved? = some names → Gives (Edit.apply d edit) d.SparesLocked :=
    fun names hmoved supply result hresult =>
      (apply_rearranges hids hmoved supply result hresult).sparesLocked hids
  -- The moves are settled, and a case is left for each of the other edits.
  cases edit with
  | move id dx dy => exact hmoves _ rfl
  | align ids mode =>
    cases hnames : idsOf ids with
    | ok names => exact hmoves names (by simp only [moved?, hnames])
    | error e => exact hmoves [] (by simp only [moved?, hnames])
  | distribute ids direction =>
    cases hnames : idsOf ids with
    | ok names => exact hmoves names (by simp only [moved?, hnames])
    | error e => exact hmoves [] (by simp only [moved?, hnames])
  | add element =>
    refine (gives_true _).bind fun found _ => (gives_true _).bind fun e _ => ?_
    exact gives_lift fun result hadd => Document.sparesLocked_of_withElements hadd
  | create kind fields =>
    refine (gives_true _).bind fun given _ => (gives_true _).bind fun e _ => ?_
    exact gives_lift fun result hadd => Document.sparesLocked_of_withElements hadd
  | duplicate id offset => exact Document.duplicate_sparesLocked hids id _
  | bringToFront id => exact gives_pure ((Document.restacks_bringToFront hids id).sparesLocked hids)
  | sendToBack id => exact gives_pure ((Document.restacks_sendToBack hids id).sparesLocked hids)
  | setSize record =>
    exact (gives_true _).bind fun size _ => gives_pure ⟨hids, fun _ he _ => he⟩
  | setStandardSize name =>
    exact (gives_true _).bind fun size _ => gives_pure ⟨hids, fun _ he _ => he⟩
  | toggleGrid => exact gives_pure ⟨hids, fun _ he _ => he⟩
  | toggleRulers => exact gives_pure ⟨hids, fun _ he _ => he⟩
  | setGridSize gridSize =>
    exact gives_lift fun result h => Document.sparesLocked_of_withSettings hids h
  | setUnits units =>
    exact gives_lift fun result h => Document.sparesLocked_of_withSettings hids h
  | applyTemplate template merge =>
    cases merge with
    | true =>
      refine (gives_true _).bind fun t _ => (gives_true _).bind fun elements _ => ?_
      exact gives_lift fun result hmerge => Document.sparesLocked_of_withElements hmerge
    | false => cases h
  | _ => cases h

end Edit

namespace Session

/-- In a document with distinct ids, every locked element outlasts every run of arranging
edits as it is, in the last document and in all that the edits gave. A single move,
alignment or distribution keeps the paint order, and every element that it does not name is
where it was and as it was. -/
theorem locked_mem_of_run {s : Session} (hids : s.document.ids.Nodup) :
    (∀ edits : List Edit, (∀ edit ∈ edits, edit.isArranging = true) →
      ∀ e ∈ s.document.elements, e.isLocked = true →
        e ∈ (s.run edits).2.document.elements ∧ ∀ d, .ok d ∈ (s.run edits).1 → e ∈ d.elements) ∧
    (∀ (edit : Edit) (names : List String), edit.moved? = some names →
      (s.step edit).2.document.ids = s.document.ids ∧
        ∀ (i : Nat) (e : Element Number), s.document.elements[i]? = some e → e.id ∉ names →
          (s.step edit).2.document.elements[i]? = some e) := by
  constructor
  · intro edits hedits e he hlocked
    -- Each document of the run spares what was locked at its start.
    have hkept : ∀ edit ∈ edits, ∀ d, s.document.SparesLocked d →
        Gives (Edit.apply d edit) s.document.SparesLocked :=
      fun edit hedit d hd supply result hresult =>
        hd.trans (Edit.apply_sparesLocked hd.ids (hedits edit hedit) supply result hresult)
    obtain ⟨hlast, hresults⟩ := run_of_gives hkept (Document.SparesLocked.refl hids)
    exact ⟨hlast.locked e he hlocked, fun d hd => (hresults d hd).locked e he hlocked⟩
  · intro edit names hmoved
    obtain ⟨hstep, -⟩ := step_of_gives (Edit.apply_rearranges hids hmoved)
      (Document.Rearranges.refl names s.document)
    exact ⟨hstep.ids_eq, fun i e he hnot => hstep.getElem? he fun hnamed => absurd hnamed hnot⟩

/-- The locked line of the sample outlasts a run that names it in an alignment, in a move
and in a copy, brings it to the front and fails in its last step; and moving the text by
itself leaves the line where it is. -/
theorem locked_mem_of_run_sample :
    let s : Session := ⟨⟨0, fun _ => "000000000"⟩, Document.sample⟩
    let edits : List Edit := [
      .align (.list [.str "price", .str "rule", .str "rule", .str "gone"]) (.str "left"),
      .move "rule" (.num (.int 3)) (.num (.int 3)), .duplicate "rule" none,
      .bringToFront "rule", .setGridSize (.num (.int 0))]
    let move : Edit := .move "price" (.num (.int 3)) (.num (.int 3))
    ∃ line, s.document.elements[1]? = some line ∧ line.isLocked = true ∧
      line ∈ (s.run edits).2.document.elements ∧
      (s.step move).2.document.ids = ["price", "rule"] ∧
      (s.step move).2.document.elements[1]? = some line := by
  intro s edits move
  obtain ⟨hrun, hstep⟩ := locked_mem_of_run (s := s) (by decide)
  obtain ⟨hids, hunnamed⟩ := hstep move ["price"] rfl
  have hmem := List.mem_of_getElem? (l := s.document.elements) (i := 1) rfl
  exact ⟨_, rfl, rfl, (hrun edits (by decide) _ hmem rfl).1, hids,
    hunnamed 1 _ rfl (by decide)⟩

end Session

end LabelLayout
