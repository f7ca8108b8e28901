import LabelLayout.Proofs.Document.Session
import LabelLayout.Proofs.Document.Stack

/-!
# `LabelLayout.Proofs.Document.Fresh`: no step of a session repeats an id

Some edits put elements under fresh ids on top of a document or in its place. The others
bring no ids of their own, as long as no element is read from a record (`Edit.drawsIds`).
`Document.Draws` is what both do: the ids of the result were there or were issued.

So in a session that starts empty every id of the document is one that the supply has
issued (`Session.IsFresh`), and what is issued next is none of them.
`Session.fresh_of_run` is the main statement.
-/

set_option autoImplicit false

namespace LabelLayout

open Issuing

/-! ### Edits -/

namespace Document

variable {d result : Document Number}

/-- The ids of the result were there or were issued, and a failure is over shared ids only
if these repeat. -/
def Draws (d : Document Number) (r : Except Error (Document Number)) (more : List String) : Prop :=
  match r with
  | .ok result => result.ids ⊆ d.ids ++ more
  | .error e => (d.ids ++ more).Nodup → ¬ e.IsRepeat

theorem draws_of_stacks {r : Except Error (Document Number)} {more : List String}
    (h : Stacks d.ids r more) : d.Draws r more := by
  cases r with
  | ok result =>
    show result.ids ⊆ _
    rw [show result.ids = _ from h]
    exact List.Subset.refl _
  | error e => exact h

/-- So does what drops all that was there. -/
theorem draws_of_stacks_nil {r : Except Error (Document Number)} {more : List String}
    (h : Stacks [] r more) : d.Draws r more := by
  cases r with
  | ok result =>
    show result.ids ⊆ _
    rw [show result.ids = _ from h]
    exact List.subset_append_right _ _
  | error e => exact fun hnodup => h (hnodup.sublist (List.sublist_append_right _ _))

/-- What brings no ids and does not fail over shared ones. -/
theorem draws_of_subset {x : Except Error (Document Number)}
    (hids : ∀ result, x = .ok result → result.ids ⊆ d.ids) (hx : NoRepeat x) : d.Draws x [] := by
  cases x with
  | ok result =>
    show result.ids ⊆ _
    rw [List.append_nil]
    exact hids result rfl
  | error e => exact fun _ => hx e rfl

theorem issues_draws_pure (h : result.ids ⊆ d.ids) : Issues (pure result) d.Draws :=
  issues_pure (draws_of_subset (x := .ok result) (fun _ hr => by cases hr; exact h)
    (failsWith_pure _))

theorem subset_of_ids_eq (h : result.ids = d.ids) : result.ids ⊆ d.ids :=
  fun _ hid => h ▸ hid

theorem ids_filter_subset (keep : Element Number → Bool) :
    (d.elements.filter keep).map Element.id ⊆ d.ids :=
  List.map_subset _ (List.filter_subset_self _)

theorem ids_bringToFront_subset (id : String) : (d.bringToFront id).ids ⊆ d.ids := by
  rw [bringToFront]
  cases hfind : d.find? id with
  | none => exact List.Subset.refl _
  | some e =>
    show List.map Element.id (_ ++ [e]) ⊆ d.ids
    rw [List.map_append, List.append_subset]
    refine ⟨ids_filter_subset _, ?_⟩
    rw [List.map_singleton, List.cons_subset]
    exact ⟨List.mem_map_of_mem (find?_spec hfind).1, List.nil_subset _⟩

theorem ids_sendToBack_subset (id : String) : (d.sendToBack id).ids ⊆ d.ids := by
  rw [sendToBack]
  cases hfind : d.find? id with
  | none => exact List.Subset.refl _
  | some e =>
    show List.map Element.id (e :: _) ⊆ d.ids
    rw [List.map_cons, List.cons_subset]
    exact ⟨List.mem_map_of_mem (find?_spec hfind).1, ids_filter_subset _⟩

theorem ids_of_update {id : String} {changes : Members} (h : d.update id changes = .ok result) :
    result.ids = d.ids := by
  simp only [update, guard_eq_ok] at h
  obtain ⟨-, -, h⟩ := h
  split at h
  · cases h
    rfl
  · obtain ⟨changed, -, h⟩ := bind_eq_ok.mp h
    cases h
    exact ids_replaceElements _ _

theorem ids_of_moveBy {id : String} {dx dy : Datum} (h : d.moveBy id dx dy = .ok result) :
    result.ids = d.ids := by
  rw [moveBy] at h
  split at h
  · cases h
    rfl
  · split at h
    · cases h
      rfl
    · simp only [bind_eq_ok, moveTo, pure_eq_ok] at h
      obtain ⟨_, -, _, -, _, -, _, -, _, -, _, -, _, -, _, -, moved, -, rfl⟩ := h
      exact ids_replaceElements _ _

theorem ids_of_withSettings {gridSize units : Datum}
    (h : d.withSettings gridSize units = .ok result) : result.ids = d.ids := by
  obtain ⟨settings, -, h⟩ := bind_eq_ok.mp h
  cases h
  rfl

end Document

namespace Edit

/-- The edits that read no element from a record under the id that it has there. -/
def drawsIds : Edit → Bool
  | .load _ | .add _ | .roundTrip => false
  | _ => true

open Document in
/-- An edit brings the ids that it issues and no others, and fails over shared ids only if
these repeat. -/
theorem apply_issues {edit : Edit} (hedit : edit.drawsIds = true) (d : Document Number) :
    Issues (Edit.apply d edit) d.Draws := by
  -- What fails before the document is touched.
  have hfailed {β : Type} {x : Except Error β} (hx : NoRepeat x) (e : Error) (h : x = .error e) :
      d.Draws (.error e) [] := fun _ => hx e h
  cases edit with
  | load record => cases hedit
  | add element => cases hedit
  | roundTrip => cases hedit
  | new size settings =>
    -- A new document is empty, so only the readers of its parts can fail.
    have hempty (size : LabelSize Number) (settings : Settings Number) :
        Issues (pure ⟨size, [], settings⟩) d.Draws := issues_draws_pure (List.nil_subset _)
    have hsettings (size : LabelSize Number) (v : Datum) :
        Issues (do return ⟨size, [], ← Settings.ofRecord v⟩) d.Draws :=
      issues_lift_bind (hfailed (Settings.noRepeat_ofRecord v)) fun _ _ => hempty _ _
    cases size with
    | none =>
      cases settings with
      | none => exact hempty _ _
      | some v => exact hsettings _ v
    | some u =>
      refine issues_lift_bind (hfailed (LabelSize.noRepeat_ofRecord u)) fun size _ => ?_
      cases settings with
      | none => exact hempty _ _
      | some v => exact hsettings _ v
  | create kind fields =>
    refine issues_lift_bind (hfailed (Members.noRepeat_ofDatum fields)) fun given _ => ?_
    exact (create_stacks kind given).mono fun _ _ h => draws_of_stacks h
  | update id changes =>
    refine issues_lift_bind (hfailed (Members.noRepeat_ofDatum changes)) fun changes _ => ?_
    exact issues_lift (draws_of_subset (fun _ h => subset_of_ids_eq (ids_of_update h))
      (noRepeat_update id changes))
  | delete id => exact issues_draws_pure (ids_filter_subset _)
  | duplicate id offset => exact (duplicate_stacks id _).mono fun _ _ h => draws_of_stacks h
  | clear => exact issues_draws_pure (List.nil_subset _)
  | replace elements =>
    rw [apply]
    -- What is read takes the places of elements with its ids, or none.
    cases elements.items? with
    | none => exact issues_throw fun _ => not_false
    | some items =>
      refine issues_lift_bind (hfailed (Element.noRepeat_ofArguments items)) fun updated _ => ?_
      exact issues_draws_pure (subset_of_ids_eq (ids_replaceElements d updated))
  | move id dx dy =>
    exact issues_lift
      (draws_of_subset (fun _ h => subset_of_ids_eq (ids_of_moveBy (lift_eq_ok.mp h)))
        (noRepeat_lift_fault _))
  | align ids mode =>
    refine issues_lift_bind (hfailed (noRepeat_idsOf ids)) fun names _ => ?_
    refine issues_lift_bind (hfailed (noRepeat_alignMode mode)) fun mode _ => ?_
    -- The results go back to the places of their ids.
    refine issues_lift (draws_of_subset (fun result h => ?_) (noRepeat_lift_fault _))
    obtain ⟨moved, -, h⟩ := bind_eq_ok.mp (lift_eq_ok.mp h)
    cases h
    exact subset_of_ids_eq (ids_replaceElements d moved)
  | distribute ids direction =>
    refine issues_lift_bind (hfailed (noRepeat_idsOf ids)) fun names _ => ?_
    refine issues_lift_bind (hfailed (noRepeat_direction direction)) fun direction _ => ?_
    refine issues_lift (draws_of_subset (fun result h => ?_) (noRepeat_lift_fault _))
    obtain ⟨moved, -, h⟩ := bind_eq_ok.mp (lift_eq_ok.mp h)
    cases h
    exact subset_of_ids_eq (ids_replaceElements d moved)
  | bringToFront id => exact issues_draws_pure (ids_bringToFront_subset id)
  | sendToBack id => exact issues_draws_pure (ids_sendToBack_subset id)
  | setSize record =>
    refine issues_lift_bind (hfailed (LabelSize.noRepeat_ofRecord record)) fun size _ => ?_
    exact issues_draws_pure (List.Subset.refl _)
  | setStandardSize name =>
    refine issues_lift_bind (hfailed (LabelSize.noRepeat_find name)) fun size _ => ?_
    exact issues_draws_pure (List.Subset.refl _)
  | toggleGrid => exact issues_draws_pure (List.Subset.refl _)
  | toggleRulers => exact issues_draws_pure (List.Subset.refl _)
  | setGridSize gridSize =>
    exact issues_lift (draws_of_subset (fun _ h => subset_of_ids_eq (ids_of_withSettings h))
      (noRepeat_withSettings _ _))
  | setUnits units =>
    exact issues_lift (draws_of_subset (fun _ h => subset_of_ids_eq (ids_of_withSettings h))
      (noRepeat_withSettings _ _))
  | applyTemplate template merge =>
    refine issues_lift_bind (hfailed (LabelTemplate.noRepeat_ofDatum template)) fun t _ => ?_
    cases merge with
    | true => exact (t.mergeInto_stacks d).mono fun _ _ h => draws_of_stacks h
    | false => exact (t.replaceIn_stacks d).mono fun _ _ h => draws_of_stacks_nil h
  | resolve context =>
    refine issues_draws_pure (subset_of_ids_eq ?_)
    show List.map Element.id (d.elements.map _) = _
    rw [List.map_map]
    rfl

/-- Whatever an edit does, it takes no issued id back. -/
theorem apply_issues_more (edit : Edit) (d : Document Number) :
    Issues (Edit.apply d edit) fun _ _ => True := by
  cases hedit : edit.drawsIds with
  | true => exact (apply_issues hedit d).mono fun _ _ _ => trivial
  | false =>
    -- The other edits issue none.
    cases edit with
    | load record => exact issues_lift trivial
    | add element =>
      exact issues_lift_bind (fun _ _ => trivial) fun _ _ =>
        issues_lift_bind (fun _ _ => trivial) fun _ _ => issues_lift trivial
    | roundTrip => exact issues_lift trivial
    | _ => cases hedit

end Edit

/-! ### Sessions -/

namespace Session

variable {s : Session} {edit : Edit}

/-- Every id of the document is one that the supply has issued. -/
structure IsFresh (s : Session) : Prop where
  document : s.document.IsValid
  issued : s.document.ids ⊆ s.supply.issuedIds

theorem step_supply (s : Session) (edit : Edit) :
    (s.step edit).2.supply = ((Edit.apply s.document edit).run s.supply).2 := by
  rw [step]
  split <;> next h => rw [h]

theorem step_result (s : Session) (edit : Edit) :
    (s.step edit).1 = ((Edit.apply s.document edit).run s.supply).1 := by
  rw [step]
  split <;> next h => rw [h]

/-- A step that fails leaves the document as it was. -/
theorem step_document (s : Session) (edit : Edit) :
    (s.step edit).2.document = (s.step edit).1.toOption.getD s.document := by
  rw [step]
  split <;> rfl

/-- A step keeps a session fresh and does not fail over shared ids. -/
theorem IsFresh.step (h : s.IsFresh) (hedit : edit.drawsIds = true) :
    (s.step edit).2.IsFresh ∧ NoRepeat (s.step edit).1 := by
  have hvalid := (step_of_gives (Edit.apply_gives h.document edit) h.document).1
  obtain ⟨more, hmore, hdraws⟩ := Edit.apply_issues hedit s.document s.supply
  have hnodup : (s.supply.issuedIds ++ more).Nodup := hmore ▸ IdSupply.nodup_issuedIds _
  rw [← step_supply] at hmore
  rw [← step_result] at hdraws
  have hdocument := s.step_document edit
  cases hresult : (s.step edit).1 with
  | ok d =>
    rw [hresult] at hdraws hdocument
    refine ⟨⟨hvalid, fun id hid => ?_⟩, failsWith_pure d⟩
    rw [hdocument] at hid
    rw [hmore]
    rcases List.mem_append.mp (hdraws hid) with hid | hid
    · exact List.mem_append_left _ (h.issued hid)
    · exact List.mem_append_right _ hid
  | error e =>
    rw [hresult] at hdraws hdocument
    refine ⟨⟨hvalid, fun id hid => ?_⟩, noRepeat_throw ?_⟩
    · rw [hdocument] at hid
      rw [hmore]
      exact List.mem_append_left _ (h.issued hid)
    · -- The ids of the document were issued before, so those of the step are others.
      obtain ⟨-, hmore, hapart⟩ := List.nodup_append.mp hnodup
      exact hdraws (List.nodup_append.mpr
        ⟨h.document.ids, hmore, fun id hid => hapart id (h.issued hid)⟩)

/-- So no step of a run fails over shared ids. -/
theorem IsFresh.run (h : s.IsFresh) {edits : List Edit}
    (hedits : ∀ edit ∈ edits, edit.drawsIds = true) :
    (s.run edits).2.IsFresh ∧ ∀ result ∈ (s.run edits).1, NoRepeat result := by
  induction edits generalizing s with
  | nil => exact ⟨h, List.forall_mem_nil _⟩
  | cons edit edits ih =>
    obtain ⟨hnext, hresult⟩ := h.step (hedits edit List.mem_cons_self)
    obtain ⟨hlast, hresults⟩ := ih hnext fun e he => hedits e (List.mem_cons_of_mem _ he)
    exact ⟨hlast, List.forall_mem_cons.mpr ⟨hresult, hresults⟩⟩

/-- A run takes no issued id back. -/
theorem issuedIds_run (s : Session) (edits : List Edit) :
    ∃ more, (s.run edits).2.supply.issuedIds = s.supply.issuedIds ++ more := by
  induction edits generalizing s with
  | nil => exact ⟨[], (List.append_nil _).symm⟩
  | cons edit edits ih =>
    obtain ⟨later, hlater⟩ := ih (s.step edit).2
    obtain ⟨more, hmore, -⟩ := Edit.apply_issues_more edit s.document s.supply
    rw [step_supply, hmore, List.append_assoc] at hlater
    exact ⟨more ++ later, hlater⟩

theorem isFresh_initial (supply : IdSupply) : IsFresh ⟨supply, Document.initial⟩ :=
  ⟨Document.isValid_initial, List.nil_subset _⟩

/-- What two uses of templates give has no id in common, whatever was done in between. -/
theorem disjoint_instantiate {supply : IdSupply} {d : Document Number} {t u : LabelTemplate}
    {edits : List Edit} {first second : List (Element Number)}
    (hfirst : (t.instantiate.run supply).1 = .ok first)
    (hsecond : (u.instantiate.run
      (run ⟨(t.instantiate.run supply).2, d⟩ edits).2.supply).1 = .ok second) :
    (first.map Element.id).Disjoint (second.map Element.id) := by
  obtain ⟨ids, hids, hbrought⟩ := t.instantiate_issues supply
  obtain ⟨between, hbetween⟩ := issuedIds_run ⟨(t.instantiate.run supply).2, d⟩ edits
  obtain ⟨later, hlater, hadded⟩ := u.instantiate_issues
    (run ⟨(t.instantiate.run supply).2, d⟩ edits).2.supply
  rw [hfirst] at hbrought
  rw [hsecond] at hadded
  obtain rfl : first.map Element.id = ids := hbrought
  obtain rfl : second.map Element.id = later := hadded
  have hnodup := IdSupply.nodup_issuedIds (u.instantiate.run
    (run ⟨(t.instantiate.run supply).2, d⟩ edits).2.supply).2
  -- One list of distinct ids begins with those of the first use and ends with those of the second.
  rw [hlater, hbetween, show (⟨(t.instantiate.run supply).2, d⟩ : Session).supply.issuedIds = _
    from hids] at hnodup
  have hapart := List.disjoint_of_nodup_append hnodup
  intro id hid hid'
  exact hapart (by simp [hid]) hid'

/-- Ids stay fresh over any run, whatever their suffixes are. Whatever is asked of a supply
and whether or not it fails, the supply never issues an id twice, and the elements that come
of it have ids that were issued for it, each its own. In a session that starts with the
empty document no step fails because two elements share an id, as long as no element is read
from a record. And two uses of templates have no id in common. -/
theorem fresh_of_run (supply : IdSupply) :
    (∀ demands, (supply.serve demands).2.issuedIds.Nodup ∧
      (supply.issuedIds ++ (supply.serve demands).1.map Element.id).Sublist
        (supply.serve demands).2.issuedIds) ∧
    (∀ edits : List Edit, (∀ edit ∈ edits, edit.drawsIds = true) →
      ∀ id, .error (.duplicateId id) ∉ (run ⟨supply, Document.initial⟩ edits).1) ∧
    ∀ (t u : LabelTemplate) (d : Document Number) (edits : List Edit)
      (first second : List (Element Number)),
      (t.instantiate.run supply).1 = .ok first →
      (u.instantiate.run (run ⟨(t.instantiate.run supply).2, d⟩ edits).2.supply).1 =
        .ok second →
      (first.map Element.id).Disjoint (second.map Element.id) := by
  refine ⟨fun demands => ⟨IdSupply.nodup_issuedIds _, supply.serve_sublist demands⟩,
    fun edits hedits id hmem => ?_,
    fun t u d edits first second hfirst hsecond => disjoint_instantiate hfirst hsecond⟩
  have hresults := ((isFresh_initial supply).run hedits).2
  exact hresults _ hmem (.duplicateId id) rfl trivial

/-- A run in which one creation fails after its id was issued and another one does not, a
copy is made, its source is deleted and a template is put on top: no step fails over shared
ids, and what a use of the template before it gives and a use after it have no id in common. -/
theorem fresh_of_run_sample :
    let supply : IdSupply := ⟨0, fun _ => "000000000"⟩
    let t : LabelTemplate := .ofDocument Document.sample (.str "t") (.str "T") (.str "") (.str "")
    let edits : List Edit := [.create (.str "line") (.object [("x2", .str "far")]),
      .create (.str "image") (.object []), .duplicate "element-2-000000000" none,
      .delete "element-2-000000000", .applyTemplate (.str "location-basic") true]
    let serving := supply.serve [.instantiate t, .create (.str "line") [("x2", .str "far")],
      .instantiate t]
    (supply.issuedIds ++ serving.1.map Element.id).Sublist serving.2.issuedIds ∧
      serving.2.issuedIds.Nodup ∧ serving.1.length = 4 ∧ serving.2.issued = 5 ∧
      (∀ id, .error (.duplicateId id) ∉ (run ⟨supply, Document.initial⟩ edits).1) ∧
      (run ⟨supply, Document.initial⟩ edits).2.document.ids =
        ["element-3-000000000", "element-4-000000000", "element-5-000000000"] ∧
      ∃ first second, (t.instantiate.run supply).1 = .ok first ∧
        (t.instantiate.run (run ⟨(t.instantiate.run supply).2, Document.initial⟩ edits).2.supply).1
          = .ok second ∧
        (first.map Element.id).Disjoint (second.map Element.id) := by
  intro supply t edits serving
  obtain ⟨hserve, hrun, huses⟩ := fresh_of_run supply
  obtain ⟨first, hfirst⟩ : ∃ first, (t.instantiate.run supply).1 = .ok first :=
    exists_of_isOk (by decide +kernel)
  obtain ⟨second, hsecond⟩ : ∃ second, (t.instantiate.run
      (run ⟨(t.instantiate.run supply).2, Document.initial⟩ edits).2.supply).1 = .ok second :=
    exists_of_isOk (by decide +kernel)
  obtain ⟨hnodup, hsublist⟩ := hserve [.instantiate t,
    .create (.str "line") [("x2", .str "far")], .instantiate t]
  exact ⟨hsublist, hnodup, by decide +kernel, by decide +kernel,
    hrun edits (by decide), by decide +kernel, first, second, hfirst, hsecond,
    huses t t _ edits first second hfirst hsecond⟩

end Session

end LabelLayout
