import LabelLayout.Document.Edit
import LabelLayout.Proofs.Design.Refusal
import LabelLayout.Proofs.Element.Fresh

/-!
# `LabelLayout.Proofs.Document.Repeat`: what does not fail over shared ids

Two elements with one id are found when a document is put together. No reader of an
argument looks for them: what it refuses is in the format family, or escapes by an error
that `LabelLayout.Proofs.Design.Refusal` names. So the readers of the edits, and the edits
that put no elements together, fail for other reasons.
-/

set_option autoImplicit false

namespace LabelLayout

/-! ### Steps -/

theorem noRepeat_lift_fault {β : Type} (x : Except Fault β) :
    NoRepeat (liftM x : Except Error β) := by
  intro e h
  obtain ⟨f, rfl⟩ := exists_fault_of_lift h
  exact not_false

theorem noRepeat_throw {β : Type} {e : Error} (h : ¬ e.IsRepeat) :
    NoRepeat (throw e : Except Error β) := by
  intro e' he'
  cases he'
  exact h

/-- A refused file is not reported as shared ids. -/
theorem Error.not_isRepeat_of_format {e : Error} (h : e.family = .format) : ¬ e.IsRepeat := by
  cases e <;> first | exact not_false | cases h

/-! ### Readers -/

theorem LabelSize.noRepeat_ofRecord (v : Datum) : NoRepeat (LabelSize.ofRecord v) :=
  fun _ h => Error.not_isRepeat_of_format (family_of_ofRecord h)

theorem Settings.noRepeat_ofRecord (v : Datum) : NoRepeat (Settings.ofRecord v) :=
  fun _ h => Error.not_isRepeat_of_format (family_of_ofRecord h)

theorem Settings.noRepeat_check (gridSize showGrid showRulers units : Datum) :
    NoRepeat (Settings.check gridSize showGrid showRulers units) :=
  ((Check.failsWith_number _ _).mono fun _ h => h.not_isRepeat).bind fun _ =>
    FailsWith.guard not_false
      (((Check.failsWith_choice _ _ _).mono fun _ h => h.not_isRepeat).bind fun _ =>
        failsWith_pure _)

theorem LabelSize.noRepeat_find (name : Datum) : NoRepeat (LabelSize.find name) := by
  rw [find]
  split
  · exact failsWith_pure _
  · exact noRepeat_throw not_false

theorem Members.noRepeat_ofDatum (v : Datum) : NoRepeat (Members.ofDatum v) := by
  cases v with
  | object members => exact failsWith_pure _
  | _ => exact noRepeat_throw not_false

/-- A record that is no element is refused, or escapes by one of two other errors. -/
theorem Element.noRepeat_ofRecord (v : Datum) : NoRepeat (Element.ofRecord v) := by
  intro e h
  by_cases he : e.family = .format
  · exact Error.not_isRepeat_of_format he
  · obtain ⟨members, -, ⟨-, rfl⟩ | ⟨-, -, -, rfl⟩⟩ := (ofRecord_eq_error_iff he).mp h <;>
      exact not_false

theorem Element.noRepeat_ofArguments (arguments : List Datum) :
    NoRepeat (Element.ofArguments arguments) := by
  refine (failsWith_mapM fun v _ => ?_).bind fun found => failsWith_mapM fun e? _ => ?_
  · cases v with
    | object members => exact (noRepeat_ofRecord _).bind fun _ => failsWith_pure _
    | _ => exact failsWith_pure _
  · cases e? with
    | some e => exact failsWith_pure _
    | none => exact noRepeat_throw not_false

namespace LabelTemplate

theorem noRepeat_pairOf (v : Datum) : NoRepeat (pairOf v) := by
  rw [pairOf]
  split
  · exact noRepeat_throw not_false
  · split
    · exact failsWith_pure _
    · exact noRepeat_throw not_false
  · exact noRepeat_throw not_false

theorem noRepeat_specOf (v : Datum) : NoRepeat (specOf v) := by
  rw [specOf.eq_def]
  split
  · exact failsWith_pure _
  · split
    · refine (failsWith_mapM fun v _ => noRepeat_pairOf v).bind fun pairs => ?_
      refine (Members.noRepeat_part _ _).bind fun _ => ?_
      exact FailsWith.guard not_false (failsWith_pure _)
    · exact noRepeat_throw not_false

theorem noRepeat_ofDatum (v : Datum) : NoRepeat (LabelTemplate.ofDatum v) := by
  cases v with
  | str id =>
    rw [ofDatum, find]
    split
    · exact failsWith_pure _
    · exact noRepeat_throw not_false
  | object members =>
    have hpart := Members.noRepeat_part members
    refine (hpart _).bind fun id => (hpart _).bind fun name => (hpart _).bind fun description =>
      (hpart _).bind fun category => (hpart _).bind fun record =>
      (LabelSize.noRepeat_ofRecord _).bind fun size => (hpart _).bind fun elements => ?_
    split
    · exact (failsWith_mapM fun v _ => noRepeat_specOf v).bind fun _ => failsWith_pure _
    · exact noRepeat_throw not_false
  | _ => exact noRepeat_throw not_false

end LabelTemplate

/-! ### Edits -/

namespace Document

variable {d : Document Number}

theorem noRepeat_update (id : String) (changes : Members) : NoRepeat (d.update id changes) := by
  rw [update]
  refine FailsWith.guard not_false (FailsWith.guard not_false ?_)
  split
  · exact failsWith_pure _
  · refine FailsWith.bind ?_ fun _ => failsWith_pure _
    refine FailsWith.bind ?_ fun _ => (Members.noRepeat_checkNames _ _).bind fun _ =>
      Element.noRepeat_assemble _ _
    intro e h
    rw [Members.checkChanges] at h
    split at h
    · cases h
      exact not_false
    · split at h
      · cases h
        exact not_false
      · cases h

theorem noRepeat_withSettings (gridSize units : Datum) :
    NoRepeat (d.withSettings gridSize units) :=
  (Settings.noRepeat_check _ _ _ _).bind fun _ => failsWith_pure _

end Document

namespace Edit

theorem noRepeat_idsOf (v : Datum) : NoRepeat (idsOf v) := by
  rw [idsOf]
  split
  · exact noRepeat_throw not_false
  · split
    · exact failsWith_pure _
    · exact noRepeat_throw not_false

theorem noRepeat_alignMode (v : Datum) : NoRepeat (AlignMode.ofDatum v) := by
  rw [AlignMode.ofDatum]
  split
  · exact failsWith_pure _
  · exact noRepeat_throw not_false

theorem noRepeat_direction (v : Datum) : NoRepeat (Direction.ofDatum v) := by
  rw [Direction.ofDatum]
  split
  · exact failsWith_pure _
  · exact noRepeat_throw not_false

end Edit

end LabelLayout
