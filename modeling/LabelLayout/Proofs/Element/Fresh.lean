import LabelLayout.Proofs.Element.Defect
import LabelLayout.Proofs.Element.Supply
import LabelLayout.Proofs.Json.Number
import LabelLayout.Template
import Mathlib.Data.List.Nodup

/-!
# `LabelLayout.Proofs.Element.Fresh`: which ids a computation issues

`IdSupply.issuedIds` are the ids that a supply has issued, in order. They are distinct
whatever their suffixes are (`IdSupply.nodup_issuedIds`), because the number of an id can
be read off it.

`Issuing.Issues x R` says that, from whichever supply, the computation `x` issues some more
ids and has an outcome that stands in `R` to them. Like `Issuing.Gives` it passes through
the steps of a computation, but it looks at failures too: a creation that fails has issued
an id all the same.
-/

set_option autoImplicit false

namespace LabelLayout

/-! ### Supplies -/

namespace IdSupply

/-- The ids that were issued, in order. -/
def issuedIds (supply : IdSupply) : List String :=
  (List.range supply.issued).map fun i => supply.idAt (i + 1)

theorem toList_idAt (supply : IdSupply) (number : Nat) :
    (supply.idAt number).toList = "element-".toList ++
      (Nat.toDigits 10 number ++ '-' :: (supply.suffix number).toList) := by
  simp [idAt]

/-- Different numbers make different ids, whatever their suffixes are. -/
theorem idAt_injective (supply : IdSupply) : Function.Injective supply.idAt := by
  intro m n h
  have hlist := congrArg String.toList h
  rw [toList_idAt, toList_idAt] at hlist
  -- A dash follows the number, so no suffix can go on with its digits.
  have hdash : '-'.isDigit = false := by decide
  have hspan := congrArg Json.spanDigits (List.append_cancel_left hlist)
  rw [Json.spanDigits_append (Json.isDigit_toDigits m) (Json.noDigit_cons hdash _),
    Json.spanDigits_append (Json.isDigit_toDigits n) (Json.noDigit_cons hdash _)] at hspan
  have hdigits := congrArg Json.digitsValue (congrArg Prod.fst hspan)
  rwa [Json.digitsValue_toDigits, Json.digitsValue_toDigits] at hdigits

/-- All ids of a supply are distinct. -/
theorem nodup_issuedIds (supply : IdSupply) : supply.issuedIds.Nodup :=
  List.Nodup.map (fun _ _ h => Nat.succ_injective (supply.idAt_injective h)) List.nodup_range

end IdSupply

namespace Issuing

variable {β γ : Type}

/-- From whichever supply, the computation issues some more ids and has an outcome that
stands in `R` to them. -/
def Issues (x : Issuing β) (R : Except Error β → List String → Prop) : Prop :=
  ∀ supply, ∃ more, (x.run supply).2.issuedIds = supply.issuedIds ++ more ∧
    R (x.run supply).1 more

theorem issues_pure {R : Except Error β → List String → Prop} {b : β} (h : R (.ok b) []) :
    Issues (pure b) R :=
  fun _ => ⟨[], (List.append_nil _).symm, h⟩

theorem issues_throw {R : Except Error β → List String → Prop} {e : Error}
    (h : R (.error e) []) : Issues (throw e) R :=
  fun _ => ⟨[], (List.append_nil _).symm, h⟩

/-- What can fail without issuing ids issues none. -/
theorem issues_lift {x : Except Error β} {R : Except Error β → List String → Prop}
    (h : R x []) : Issues (liftM x) R := by
  cases x with
  | ok b => exact issues_pure h
  | error e => exact issues_throw h

theorem Issues.mono {x : Issuing β} {R S : Except Error β → List String → Prop}
    (hx : Issues x R) (h : ∀ r more, R r more → S r more) : Issues x S := by
  intro supply
  obtain ⟨more, hmore, hr⟩ := hx supply
  exact ⟨more, hmore, h _ _ hr⟩

/-- A step goes on with the ids that the one before has left, unless that has failed. -/
theorem run_bind (x : Issuing β) (f : β → Issuing γ) (supply : IdSupply) :
    (x >>= f).run supply =
      (ExceptT.bindCont f (x.run supply).1).run (x.run supply).2 := rfl

/-- What can fail without issuing ids leaves the ids as they are. -/
theorem run_lift (x : Except Error β) (supply : IdSupply) :
    (liftM x : Issuing β).run supply = (x, supply) := by
  cases x <;> rfl

/-- The ids of two steps are those of the first and then those of the second. -/
theorem Issues.bind {x : Issuing β} {f : β → Issuing γ}
    {R : Except Error β → List String → Prop} {S : Except Error γ → List String → Prop}
    (hx : Issues x R) (herror : ∀ e more, R (.error e) more → S (.error e) more)
    (hok : ∀ b more, R (.ok b) more → Issues (f b) fun r later => S r (more ++ later)) :
    Issues (x >>= f) S := by
  intro supply
  obtain ⟨more, hmore, hr⟩ := hx supply
  rw [run_bind]
  cases hfirst : (x.run supply).1 with
  | ok b =>
    rw [hfirst] at hr
    obtain ⟨later, hlater, hs⟩ := hok b more hr (x.run supply).2
    rw [hmore, List.append_assoc] at hlater
    exact ⟨more ++ later, hlater, hs⟩
  | error e =>
    rw [hfirst] at hr
    exact ⟨more, hmore, herror e more hr⟩

/-- What can fail without issuing ids changes nothing of what the steps after it issue. -/
theorem issues_lift_bind {x : Except Error β} {f : β → Issuing γ}
    {S : Except Error γ → List String → Prop} (herror : ∀ e, x = .error e → S (.error e) [])
    (hok : ∀ b, x = .ok b → Issues (f b) S) : Issues (liftM x >>= f) S := by
  cases x with
  | ok b => exact hok b rfl
  | error e => exact issues_throw (herror e rfl)

theorem issues_guard {c : Bool} {e : Error} {x : Issuing β}
    {R : Except Error β → List String → Prop} (h : R (.error e) []) (hx : Issues x R) :
    Issues (do if c then throw e
               x) R := by
  cases c with
  | true => exact issues_throw h
  | false => exact hx

end Issuing

/-! ### New elements -/

/-- The error about two elements of a document that share an id. -/
def Error.IsRepeat : Error → Prop
  | .duplicateId _ => True
  | _ => False

theorem Error.IsFieldError.not_isRepeat {e : Error} (h : e.IsFieldError) : ¬ e.IsRepeat := by
  cases e <;> first | exact not_false | exact h.elim

/-- The computation does not fail because two elements share an id. -/
abbrev NoRepeat {β : Type} (x : Except Error β) : Prop := FailsWith (fun e => ¬ e.IsRepeat) x

open Issuing

/-- What was made has the ids that were issued, and a failure is not about shared ids. -/
def Brings {β : Type} (ids : β → List String) (r : Except Error β) (more : List String) : Prop :=
  match r with
  | .ok b => ids b = more
  | .error e => ¬ e.IsRepeat

theorem freshId_issues : Issues freshId fun r more => ∃ id, r = .ok id ∧ more = [id] := by
  intro supply
  refine ⟨[supply.idAt (supply.issued + 1)], ?_, _, rfl, rfl⟩
  show (List.range (supply.issued + 1)).map _ = _
  -- The suffixes are those of the supply, so the ids before it are what they were.
  rw [List.range_succ, List.map_append]
  rfl

/-- A fresh id is the first of those that are issued from there on. -/
theorem issues_freshId_bind {β : Type} {f : String → Issuing β}
    {S : Except Error β → List String → Prop}
    (hf : ∀ id, Issues (f id) fun r later => S r (id :: later)) : Issues (freshId >>= f) S := by
  refine freshId_issues.bind (fun e more h => ?_) fun id more h => ?_
  · obtain ⟨id, hid, -⟩ := h
    cases hid
  · obtain ⟨_, hid, rfl⟩ := h
    cases hid
    exact hf id

theorem Members.noRepeat_checkNames (allowed : List String) (members : Members) :
    NoRepeat (members.checkNames allowed) := by
  intro e h
  rw [checkNames] at h
  split at h
  · cases h
    exact not_false
  · cases h

theorem Members.noRepeat_part (members : Members) (name : String) :
    NoRepeat (members.part name) := by
  intro e h
  rw [part] at h
  split at h
  · cases h
  · cases h
    exact not_false

theorem Kind.noRepeat_ofDatum? (v : Datum) :
    NoRepeat (Kind.ofDatum? v) := by
  intro e h
  rw [ofDatum?.eq_def] at h
  split at h
  · cases h
  · split at h
    · cases h
    · cases h
      exact not_false

theorem Element.noRepeat_assemble (kind : Kind) (fields : Fields) :
    NoRepeat (Element.assemble kind fields) :=
  (Element.failsWith_assemble kind).mono fun e h => by
    rcases h with h | ⟨f, rfl⟩
    · exact h.not_isRepeat
    · exact not_false

/-- An element is assembled under the id that is given first. -/
theorem Element.id_of_assemble {kind : Kind} {id : String} {given : Members} {otherwise : Fields}
    {e : Element Number}
    (h : Element.assemble kind (.ofMembers (("id", .str id) :: given) otherwise) = .ok e) :
    e.id = id := by
  obtain ⟨rfl, -, hfields⟩ := assemble_eq_ok.mp h
  have hid : (.str id : Datum) = .str e.id := hfields .id (Kind.id_mem_inputs _)
  exact (Value.str.inj hid).symm

/-- A new element has the one id that was issued. -/
theorem createElement_issues (kind : Datum) (given : Members) :
    Issues (createElement kind given) (Brings fun e => [e.id]) := by
  refine issues_guard not_false (issues_lift_bind (Kind.noRepeat_ofDatum? kind) fun kind? _ => ?_)
  cases kind? with
  | none => exact issues_throw not_false
  | some k =>
    refine issues_guard not_false (issues_freshId_bind fun id => ?_)
    -- The id is issued by now, whatever the check of the fields finds.
    refine issues_lift_bind (Members.noRepeat_checkNames _ _) fun _ _ => issues_lift ?_
    cases h : Element.assemble k (.ofMembers (("id", .str id) :: given) k.default) with
    | ok e => exact congrArg (fun id => [id]) (Element.id_of_assemble h)
    | error e => exact Element.noRepeat_assemble _ _ e h

/-- So has a copy. -/
theorem Element.clone_issues (e : Element Number) (dx dy : Datum) :
    Issues (e.clone dx dy) (Brings fun copy => [copy.id]) := by
  refine issues_freshId_bind fun id => ?_
  refine issues_lift_bind (fun _ h => ?_) fun shifted _ => issues_pure rfl
  obtain ⟨f, rfl⟩ := exists_fault_of_lift h
  exact not_false

/-- New elements have the ids that were issued, in order. -/
theorem issues_mapM {β : Type} {f : β → Issuing (Element Number)} {items : List β}
    (h : ∀ b ∈ items, Issues (f b) (Brings fun e => [e.id])) :
    Issues (items.mapM f) (Brings (List.map Element.id)) := by
  induction items with
  | nil => exact issues_pure rfl
  | cons b items ih =>
    rw [List.mapM_cons]
    refine (h b List.mem_cons_self).bind (fun _ _ => id) fun e more he => ?_
    obtain rfl : [e.id] = more := he
    refine (ih fun b hb => h b (List.mem_cons_of_mem _ hb)).bind (fun _ _ => id)
      fun rest more hrest => ?_
    obtain rfl : rest.map Element.id = more := hrest
    exact issues_pure (List.append_nil _).symm

theorem LabelTemplate.instantiate_issues (t : LabelTemplate) :
    Issues t.instantiate (Brings (List.map Element.id)) :=
  issues_mapM fun spec _ => issues_lift_bind (Members.noRepeat_part spec _) fun kind _ =>
    createElement_issues kind _

end LabelLayout
