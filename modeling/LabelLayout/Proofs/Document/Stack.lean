import LabelLayout.Proofs.Document.Repeat
import LabelLayout.Proofs.Document.Valid

/-!
# `LabelLayout.Proofs.Document.Stack`: what brings ids to a document

Ids come to a document in three ways: a new element, a copy, and the elements of a
template. `Stacks` says what these have in common. The ids of the result are those that
were there and then those that were issued, and the step fails over a shared id only if
these repeat.

A `Demand` is whatever asks a supply for ids. In a sequence of demands, some of which may
fail, the elements that come of it have ids that were issued for it, each its own
(`IdSupply.serve_sublist`).
-/

set_option autoImplicit false

namespace LabelLayout

open Issuing

/-! ### What brings ids to a document -/

/-- The ids of the result are those of the base and then those that were issued, and a
failure is over shared ids only if these repeat. -/
def Stacks (base : List String) (r : Except Error (Document Number)) (more : List String) : Prop :=
  match r with
  | .ok d => d.ids = base ++ more
  | .error e => (base ++ more).Nodup → ¬ e.IsRepeat

theorem stacks_make (size : LabelSize Number) (elements : List (Element Number))
    (settings : Settings Number) {base more : List String}
    (h : elements.map Element.id = base ++ more) :
    Stacks base (Document.make size elements settings) more := by
  cases hmake : Document.make size elements settings with
  | ok d =>
    obtain ⟨-, rfl⟩ := Document.make_eq_ok.mp hmake
    exact h
  | error e =>
    -- Elements with distinct ids do not fail.
    intro hnodup
    cases hmake.symm.trans (Document.make_eq_ok.mpr ⟨h ▸ hnodup, rfl⟩)

/-- What stands before the elements are put on top of each other fails for other reasons. -/
theorem Brings.stacks {β : Type} {ids : β → List String} {base : List String} {e : Error}
    {more : List String} (h : Brings ids (.error e) more) : Stacks base (.error e) more :=
  fun _ => h

namespace Document

variable {d : Document Number}

theorem stacks_withElements (more : List (Element Number)) :
    Stacks d.ids (d.withElements (d.elements ++ more)) (more.map Element.id) :=
  stacks_make _ _ _ List.map_append

theorem create_stacks (kind : Datum) (given : Members) :
    Issues (createElement kind given >>= fun e => liftM (d.add e)) (Stacks d.ids) := by
  refine (createElement_issues kind given).bind (fun _ _ h => h.stacks) fun e more he => ?_
  obtain rfl : [e.id] = more := he
  exact issues_lift (stacks_withElements [e])

theorem duplicate_stacks (id : String) (offset : Datum) :
    Issues (d.duplicate id offset) (Stacks d.ids) := by
  rw [duplicate]
  cases d.find? id with
  | none => exact issues_pure (List.append_nil _).symm
  | some e =>
    refine (e.clone_issues offset offset).bind (fun _ _ h => h.stacks) fun copy more hcopy => ?_
    obtain rfl : [copy.id] = more := hcopy
    exact issues_lift (stacks_withElements [copy])

end Document

namespace LabelTemplate

theorem mergeInto_stacks (t : LabelTemplate) (d : Document Number) :
    Issues (t.mergeInto d) (Stacks d.ids) := by
  refine t.instantiate_issues.bind (fun _ _ h => h.stacks) fun elements more h => ?_
  obtain rfl : elements.map Element.id = more := h
  refine issues_lift ?_
  rw [List.append_nil]
  exact Document.stacks_withElements elements

theorem replaceIn_stacks (t : LabelTemplate) (d : Document Number) :
    Issues (t.replaceIn d) (Stacks []) := by
  refine t.instantiate_issues.bind (fun _ _ h => h.stacks) fun elements more h => ?_
  exact issues_lift (stacks_make _ _ _ (by rw [List.append_nil]; exact h))

end LabelTemplate

/-! ### Sequences of demands -/

/-- What asks a supply for ids. -/
inductive Demand where
  | create (kind : Datum) (given : Members)
  | clone (e : Element Number) (dx dy : Datum)
  | duplicate (d : Document Number) (id : String) (offset : Datum)
  | instantiate (t : LabelTemplate)
  | mergeInto (t : LabelTemplate) (d : Document Number)
  | replaceIn (t : LabelTemplate) (d : Document Number)

namespace Demand

/-- The new elements that a demand is answered with: of a document those that it did not
have before. -/
def meet : Demand → Issuing (List (Element Number))
  | .create kind given => do return [← createElement kind given]
  | .clone e dx dy => do return [← e.clone dx dy]
  | .duplicate d id offset => do return (← d.duplicate id offset).elements.drop d.elements.length
  | .instantiate t => t.instantiate
  | .mergeInto t d => do return (← t.mergeInto d).elements.drop d.elements.length
  | .replaceIn t d => do return (← t.replaceIn d).elements

/-- The elements of an outcome have the ids that were issued, in order. -/
def Answers (r : Except Error (List (Element Number))) (more : List String) : Prop :=
  ∀ elements, r = .ok elements → elements.map Element.id = more

theorem issues_answers {β : Type} {x : Issuing β} {R : Except Error β → List String → Prop}
    (hx : Issues x R) {f : β → List (Element Number)}
    (h : ∀ b more, R (.ok b) more → (f b).map Element.id = more) :
    Issues (do return f (← x)) Answers := by
  refine hx.bind (fun _ _ _ _ h => nomatch h) fun b more hb => issues_pure ?_
  rintro _ ⟨⟩
  rw [List.append_nil]
  exact h b more hb

/-- What is put on top of a document are the elements with the ids that were issued. -/
theorem map_id_drop {d result : Document Number} {more : List String}
    (h : Stacks d.ids (.ok result) more) :
    (result.elements.drop d.elements.length).map Element.id = more := by
  have hlength : d.elements.length = d.ids.length := (List.length_map _).symm
  rw [List.map_drop, hlength, show result.elements.map Element.id = _ from h, List.drop_left]

/-- The elements that a demand is answered with have the ids that it has issued, in order. -/
theorem meet_issues (demand : Demand) : Issues demand.meet Answers := by
  cases demand with
  | create kind given => exact issues_answers (createElement_issues kind given) fun _ _ h => h
  | clone e dx dy => exact issues_answers (e.clone_issues dx dy) fun _ _ h => h
  | duplicate d id offset =>
    exact issues_answers (d.duplicate_stacks id offset) fun _ _ h => map_id_drop h
  | instantiate t =>
    refine t.instantiate_issues.mono fun r more h elements hr => ?_
    subst hr
    exact h
  | mergeInto t d => exact issues_answers (t.mergeInto_stacks d) fun _ _ h => map_id_drop h
  | replaceIn t d => exact issues_answers (t.replaceIn_stacks d) fun _ _ h => h

end Demand

/-- The elements that come of a sequence of demands, and the supply after it. A demand that
fails is answered with none. -/
def IdSupply.serve (supply : IdSupply) : List Demand → List (Element Number) × IdSupply
  | [] => ([], supply)
  | demand :: demands =>
    let (result, next) := demand.meet.run supply
    let (elements, last) := next.serve demands
    (result.toOption.getD [] ++ elements, last)

/-- The elements that come of a sequence of demands have ids that were issued for it, each
its own. -/
theorem IdSupply.serve_sublist (supply : IdSupply) (demands : List Demand) :
    (supply.issuedIds ++ (supply.serve demands).1.map Element.id).Sublist
      (supply.serve demands).2.issuedIds := by
  induction demands generalizing supply with
  | nil =>
    rw [serve, List.map_nil, List.append_nil]
  | cons demand demands ih =>
    obtain ⟨more, hmore, hmeet⟩ := demand.meet_issues supply
    simp only [serve]
    cases hrun : demand.meet.run supply with
    | mk result next =>
      rw [hrun] at hmore hmeet
      have hrest := ih next
      rw [show next.issuedIds = _ from hmore] at hrest
      refine List.Sublist.trans ?_ hrest
      rw [List.map_append, ← List.append_assoc]
      refine List.Sublist.append_right (List.Sublist.append_left ?_ _) _
      -- A demand that fails leaves its ids unused.
      cases result with
      | ok elements =>
        rw [← hmeet elements rfl]
        exact List.Sublist.refl _
      | error e => exact List.nil_sublist _

end LabelLayout
