import LabelLayout.Element.Supply
import LabelLayout.Proofs.Geometry.Valid

/-!
# `LabelLayout.Proofs.Element.Supply`: what computations that issue ids give

`Issuing.Gives x P` says that whatever a computation gives has a property, whichever
ids are still to issue and whether or not it fails. It passes through the steps of a
computation (`Issuing.Gives.bind`, `Issuing.Gives.mapM`), so that new elements and
copies are valid: `createElement_gives`, `Element.clone_gives`.
-/

set_option autoImplicit false

namespace LabelLayout

namespace Issuing

variable {β γ : Type}

/-- Whatever the computation gives has the property. -/
def Gives (x : Issuing β) (P : β → Prop) : Prop :=
  ∀ supply b, (x.run supply).1 = .ok b → P b

theorem gives_pure {P : β → Prop} {b : β} (h : P b) : Gives (pure b) P := by
  intro supply c hc
  cases hc
  exact h

/-- Nothing is asked of what the computation gives. -/
theorem gives_true (x : Issuing β) : Gives x fun _ => True := fun _ _ _ => trivial

theorem gives_throw (e : Error) (P : β → Prop) : Gives (throw e) P := by
  intro supply b hb
  cases hb

/-- What follows a step may rely on what the step gives. -/
theorem Gives.bind {x : Issuing β} {f : β → Issuing γ} {P : β → Prop} {Q : γ → Prop}
    (hx : Gives x P) (hf : ∀ b, P b → Gives (f b) Q) : Gives (x >>= f) Q := by
  intro supply c hc
  -- The step that follows goes on with the ids that the first has left.
  have hrun : (x >>= f).run supply
      = (ExceptT.bindCont f (x.run supply).1).run (x.run supply).2 := rfl
  rw [hrun] at hc
  cases hfirst : (x.run supply).1 with
  | ok b =>
    rw [hfirst] at hc
    exact hf b (hx supply b hfirst) _ c hc
  | error e =>
    rw [hfirst] at hc
    cases hc

theorem gives_guard {c : Bool} {e : Error} {x : Issuing β} {P : β → Prop} (h : Gives x P) :
    Gives (do if c then throw e
              x) P := by
  cases c with
  | true => exact gives_throw e P
  | false => exact h

/-- What can fail without issuing ids gives its result. -/
theorem gives_lift {x : Except Error β} {P : β → Prop} (h : ∀ b, x = .ok b → P b) :
    Gives (liftM x) P := by
  intro supply b hb
  cases x with
  | ok a =>
    cases hb
    exact h _ rfl
  | error e => cases hb

/-- So does arithmetic that can fail. -/
theorem gives_lift_fault {x : Except Fault β} {P : β → Prop} (h : ∀ b, x = .ok b → P b) :
    Gives (liftM x) P :=
  gives_lift fun b hb => h b (lift_eq_ok.mp hb)

/-- What every item gives, all results have. -/
theorem gives_mapM {f : β → Issuing γ} {P : γ → Prop} {items : List β}
    (h : ∀ b ∈ items, Gives (f b) P) : Gives (items.mapM f) fun results => ∀ c ∈ results, P c := by
  induction items with
  | nil => exact gives_pure fun c hc => absurd hc List.not_mem_nil
  | cons b items ih =>
    rw [List.mapM_cons]
    refine (h b List.mem_cons_self).bind fun c hc => ?_
    refine (ih fun b hb => h b (List.mem_cons_of_mem _ hb)).bind fun results hresults => ?_
    exact gives_pure (List.forall_mem_cons.mpr ⟨hc, hresults⟩)

end Issuing

open Issuing

/-- Every id that is issued is a text that is not empty. -/
theorem IdSupply.idAt_ne_empty (supply : IdSupply) (number : Nat) :
    supply.idAt number ≠ "" := by
  intro h
  have hlist := congrArg String.toList h
  simp [idAt] at hlist

theorem freshId_gives : Gives freshId fun id => id ≠ "" := by
  intro supply id h
  cases h
  exact supply.idAt_ne_empty _

/-- A new element is valid. -/
theorem createElement_gives (kind : Datum) (given : Members) :
    Gives (createElement kind given) Element.IsValid := by
  rw [createElement]
  refine gives_guard ?_
  refine (gives_lift fun _ _ => trivial).bind fun kind? _ => ?_
  cases kind? with
  | none => exact gives_throw _ _
  | some k =>
    refine gives_guard ?_
    -- The id is issued before the fields are checked, and the check is what counts.
    refine freshId_gives.bind fun id _ => ?_
    refine (gives_lift fun _ _ => trivial).bind fun _ _ => ?_
    exact gives_lift fun e h => Element.isValid_of_assemble h

/-- The same element under another id is valid. -/
theorem Element.IsValid.withId {e : Element Number} (h : e.IsValid) {id : String}
    (hid : id ≠ "") : (e.withId id).IsValid :=
  -- Whether a frame spans the ends of a line does not depend on its id.
  ⟨hid, fun line hline =>
    have hspans := Frame.spanning_eq_ok.mp (h.spans line hline)
    Frame.spanning_eq_ok.mpr hspans⟩

/-- A copy of a valid element is valid. -/
theorem Element.clone_gives {e : Element Number} (he : e.IsValid) (dx dy : Datum) :
    Gives (e.clone dx dy) Element.IsValid := by
  refine freshId_gives.bind fun id hid => ?_
  refine (gives_lift_fault fun shifted h => isValid_of_shiftBy he h).bind fun shifted h => ?_
  exact gives_pure (h.withId hid)

end LabelLayout
