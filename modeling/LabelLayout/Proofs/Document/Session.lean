import LabelLayout.Document.Edit
import LabelLayout.Proofs.Design.RoundTrip
import LabelLayout.Proofs.Document.PaintOrder
import LabelLayout.Proofs.Element.Supply

/-!
# `LabelLayout.Proofs.Document.Session`: every document of a session is valid

`Edit.apply_gives` is the step: an edit of a valid document gives a valid document,
whatever its arguments. A step that fails leaves the document as it was, so every
document of a session that starts empty is valid (`Session.isValid_of_run`).

The edits fall into three groups. Some read a document or a part of it from their
arguments, and the checks of the reader are those of validity. Some replace elements
by valid ones under the same ids. The others drop elements, put them in another
order, or change what validity does not look at.
-/

set_option autoImplicit false

namespace LabelLayout

open Issuing

namespace Document

variable {d : Document Number}

/-- A valid document with other elements is valid when these are and have different ids. -/
theorem IsValid.withElements (h : d.IsValid) {elements : List (Element Number)}
    (helements : ∀ e ∈ elements, e.IsValid) (hids : (elements.map Element.id).Nodup) :
    IsValid { d with elements } :=
  ⟨h.size, helements, hids, h.settings⟩

/-- Elements whose ids were checked make a valid document. -/
theorem IsValid.of_make {size : LabelSize Number} {elements : List (Element Number)}
    {settings : Settings Number} {result : Document Number} (hsize : size.IsValid)
    (helements : ∀ e ∈ elements, e.IsValid) (hsettings : settings.IsValid)
    (h : make size elements settings = .ok result) : result.IsValid := by
  obtain ⟨hids, rfl⟩ := make_eq_ok.mp h
  exact ⟨hsize, helements, hids, hsettings⟩

/-- A valid element on top of a valid document. -/
theorem IsValid.of_add (h : d.IsValid) {e : Element Number} (he : e.IsValid)
    {result : Document Number} (hadd : d.add e = .ok result) : result.IsValid := by
  refine .of_make h.size (fun o ho => ?_) h.settings hadd
  rcases List.mem_append.mp ho with ho | ho
  · exact h.elements o ho
  · rw [List.mem_singleton.mp ho]
    exact he

/-- Valid elements in the places of those with their ids. -/
theorem IsValid.replaceElements (h : d.IsValid) {updated : List (Element Number)}
    (hupdated : ∀ e ∈ updated, e.IsValid) : (d.replaceElements updated).IsValid := by
  refine ⟨h.size, fun e he => ?_, ?_, h.settings⟩
  · obtain ⟨o, ho, rfl⟩ := List.mem_map.mp he
    cases hfind : updated.reverse.find? (fun u => u.id == o.id) with
    | none => exact h.elements o ho
    | some u => exact hupdated u (List.mem_reverse.mp (List.mem_of_find?_eq_some hfind))
  · rw [ids_replaceElements]
    exact h.ids

/-- A document without some of its elements. -/
theorem IsValid.filter (h : d.IsValid) (keep : Element Number → Bool) :
    IsValid { d with elements := d.elements.filter keep } :=
  h.withElements (fun e he => h.elements e (List.mem_filter.mp he).1)
    (h.ids.sublist (List.filter_sublist.map _))

/-- A document with its elements in another order. -/
theorem IsValid.of_restacks (h : d.IsValid) {id : String} {result : Document Number}
    (hrestacks : d.Restacks id result) : result.IsValid where
  size := hrestacks.size ▸ h.size
  elements e he := h.elements e (hrestacks.perm.mem_iff.mp he)
  ids := hrestacks.nodup h.ids
  settings := hrestacks.settings ▸ h.settings

/-- A changed element is valid. -/
theorem isValid_of_modify {e changed : Element Number} {changes : Members}
    (h : e.modify changes = .ok changed) : changed.IsValid := by
  rw [Element.modify] at h
  -- Two checks of the names, and then the element is assembled anew.
  obtain ⟨_, -, h⟩ := bind_eq_ok.mp h
  obtain ⟨_, -, h⟩ := bind_eq_ok.mp h
  exact Element.isValid_of_assemble h

theorem IsValid.of_update (h : d.IsValid) {id : String} {changes : Members}
    {result : Document Number} (hupdate : d.update id changes = .ok result) :
    result.IsValid := by
  simp only [update, guard_eq_ok] at hupdate
  obtain ⟨-, -, hupdate⟩ := hupdate
  split at hupdate
  · cases hupdate
    exact h
  · obtain ⟨changed, hchanged, hupdate⟩ := bind_eq_ok.mp hupdate
    cases hupdate
    exact h.replaceElements fun e he => by
      rw [List.mem_singleton.mp he]
      exact isValid_of_modify hchanged

theorem IsValid.of_moveTo (h : d.IsValid) {e : Element Number} (he : e.IsValid) {x y : Number}
    {result : Document Number} (hmove : d.moveTo e x y = .ok result) : result.IsValid := by
  simp only [moveTo, bind_eq_ok, pure_eq_ok] at hmove
  obtain ⟨x', -, y', -, dx, -, dy, -, moved, hmoved, rfl⟩ := hmove
  exact h.replaceElements fun o ho => by
    rw [List.mem_singleton.mp ho]
    exact Element.isValid_of_translate he hmoved

theorem IsValid.of_moveBy (h : d.IsValid) {id : String} {dx dy : Datum}
    {result : Document Number} (hmove : d.moveBy id dx dy = .ok result) : result.IsValid := by
  rw [moveBy] at hmove
  split at hmove
  · cases hmove
    exact h
  · next e hfind =>
    split at hmove
    · cases hmove
      exact h
    · simp only [bind_eq_ok] at hmove
      obtain ⟨x₀, -, x, -, y₀, -, y, -, hmove⟩ := hmove
      exact h.of_moveTo (h.elements e (find?_spec hfind).1) hmove

/-- The elements that may move are elements of the document. -/
theorem IsValid.movable (h : d.IsValid) (ids : List String) :
    ∀ e ∈ d.movable ids, e.IsValid :=
  fun e he => h.elements e (List.mem_filter.mp he).1

theorem IsValid.of_align (h : d.IsValid) {ids : List String} {mode : AlignMode}
    {result : Document Number} (halign : d.align ids mode = .ok result) : result.IsValid := by
  obtain ⟨moved, hmoved, halign⟩ := bind_eq_ok.mp halign
  cases halign
  exact h.replaceElements (Geometry.isValid_of_align (h.movable ids) hmoved)

theorem IsValid.of_distribute (h : d.IsValid) {ids : List String} {direction : Direction}
    {result : Document Number} (hdistribute : d.distribute ids direction = .ok result) :
    result.IsValid := by
  obtain ⟨moved, hmoved, hdistribute⟩ := bind_eq_ok.mp hdistribute
  cases hdistribute
  exact h.replaceElements (Geometry.isValid_of_distribute (h.movable ids) hmoved)

/-- Filling in a context leaves lines and ids alone. -/
theorem isValid_resolve {e : Element Number} (h : e.IsValid) (context : Datum) :
    (e.resolve context).IsValid := by
  refine ⟨h.id_ne_empty, fun line hline => h.spans line ?_⟩
  obtain ⟨frame, body⟩ := e
  cases body <;> first | exact hline | cases hline

theorem IsValid.resolve (h : d.IsValid) (context : Datum) : (d.resolve context).IsValid := by
  refine h.withElements (fun e he => ?_) ?_
  · obtain ⟨o, ho, rfl⟩ := List.mem_map.mp he
    exact isValid_resolve (h.elements o ho) context
  · rw [List.map_map]
    exact h.ids

theorem IsValid.of_withSettings (h : d.IsValid) {gridSize units : Datum}
    {result : Document Number} (hsettings : d.withSettings gridSize units = .ok result) :
    result.IsValid := by
  obtain ⟨settings, hcheck, hsettings⟩ := bind_eq_ok.mp hsettings
  cases hsettings
  exact ⟨h.size, h.elements, h.ids, (Settings.check_eq_ok.mp hcheck).1⟩

theorem IsValid.of_roundTrip (h : d.IsValid) {result : Document Number}
    (hround : d.roundTrip = .ok result) : result.IsValid := by
  rw [roundTrip] at hround
  obtain ⟨text, -, hround⟩ := bind_eq_ok.mp hround
  obtain ⟨back, hback, hround⟩ := bind_eq_ok.mp hround
  cases back with
  | none =>
    -- Where the file is rejected the document stays.
    cases hround
    exact h
  | some d' =>
    cases hround
    obtain ⟨v, -, hrecord⟩ := imported_eq_some hback
    exact isValid_of_ofRecord hrecord

end Document

/-! ### Sizes and templates -/

/-- The sizes on offer are valid. -/
theorem LabelSize.isValid_of_mem_standard : ∀ size ∈ standard, size.IsValid := by
  have h : standard.all (fun size => !size.width.le (.int 0) && !size.height.le (.int 0))
      = true := by decide +kernel
  intro size hsize
  have hsize := List.all_eq_true.mp h size hsize
  simpa [IsValid] using hsize

theorem LabelSize.isValid_of_find {name : Datum} {size : LabelSize Number}
    (h : find name = .ok size) : size.IsValid := by
  rw [find] at h
  split at h
  · next found hfound =>
    cases h
    exact isValid_of_mem_standard _ (List.mem_of_find?_eq_some hfound)
  · cases h

namespace LabelTemplate

/-- New elements of a template are valid. -/
theorem instantiate_gives (t : LabelTemplate) :
    Gives t.instantiate fun elements => ∀ e ∈ elements, e.IsValid := by
  refine gives_mapM fun spec _ => ?_
  exact (gives_lift fun _ _ => trivial).bind fun kind _ => createElement_gives kind _

/-- The built-in templates have valid sizes. -/
theorem isValid_size_of_mem_library : ∀ t ∈ library, t.size.IsValid := by
  simp only [library, List.forall_mem_cons]
  exact ⟨⟨rfl, rfl⟩, ⟨rfl, rfl⟩, ⟨rfl, rfl⟩, ⟨rfl, rfl⟩, List.forall_mem_nil _⟩

theorem isValid_size_of_ofDatum {v : Datum} {t : LabelTemplate} (h : ofDatum v = .ok t) :
    t.size.IsValid := by
  cases v with
  | str id =>
    rw [ofDatum, find] at h
    split at h
    · next found hfound =>
      cases h
      exact isValid_size_of_mem_library _ (List.mem_of_find?_eq_some hfound)
    · cases h
  | object members =>
    simp only [ofDatum, bind_eq_ok] at h
    obtain ⟨id, -, name, -, description, -, category, -, sizeRecord, -, size, hsize, elements, -,
      h⟩ := h
    split at h
    · obtain ⟨specs, -, h⟩ := bind_eq_ok.mp h
      cases h
      exact (LabelSize.ofRecord_eq_ok hsize).1
    · cases h
  | _ => cases h

theorem mergeInto_gives {d : Document Number} (h : d.IsValid) (t : LabelTemplate) :
    Gives (t.mergeInto d) Document.IsValid := by
  refine t.instantiate_gives.bind fun elements helements => gives_lift fun result hresult => ?_
  refine .of_make h.size (fun e he => ?_) h.settings hresult
  rcases List.mem_append.mp he with he | he
  · exact h.elements e he
  · exact helements e he

theorem replaceIn_gives {d : Document Number} (h : d.IsValid) {t : LabelTemplate}
    (ht : t.size.IsValid) : Gives (t.replaceIn d) Document.IsValid :=
  t.instantiate_gives.bind fun _ helements => gives_lift fun _ hresult =>
    .of_make ht helements h.settings hresult

end LabelTemplate

/-! ### Arguments -/

/-- An element that is read from an argument is valid. -/
theorem Element.isValid_of_ofArgument? {v : Datum} {found : Option (Element Number)}
    (h : ofArgument? v = .ok found) : ∀ e, found = some e → e.IsValid := by
  rintro e rfl
  cases v with
  | object members =>
    obtain ⟨e', he, h⟩ := bind_eq_ok.mp h
    cases h
    exact isValid_of_ofRecord he
  | _ => cases h

theorem Element.present_eq_ok {found : Option (Element Number)} {e : Element Number}
    (h : present found = .ok e) : found = some e := by
  cases found with
  | none => cases h
  | some o =>
    cases h
    rfl

/-- So are those that are read from several. -/
theorem Element.isValid_of_ofArguments {arguments : List Datum}
    {elements : List (Element Number)} (h : ofArguments arguments = .ok elements) :
    ∀ e ∈ elements, e.IsValid := by
  obtain ⟨found, hfound, h⟩ := bind_eq_ok.mp h
  intro e he
  obtain ⟨e?, he?, hpresent⟩ := exists_of_mapM_eq_ok h e he
  obtain ⟨v, -, hv⟩ := exists_of_mapM_eq_ok hfound e? he?
  exact isValid_of_ofArgument? hv e (present_eq_ok hpresent)

/-! ### Sessions -/

/-- A document without elements is valid when its size and its settings are. -/
theorem Document.isValid_empty {size : LabelSize Number} {settings : Settings Number}
    (hsize : size.IsValid) (hsettings : settings.IsValid) :
    Document.IsValid ⟨size, [], settings⟩ :=
  ⟨hsize, List.forall_mem_nil _, List.nodup_nil, hsettings⟩

/-- An edit of a valid document gives a valid document. -/
theorem Edit.apply_gives {d : Document Number} (h : d.IsValid) (edit : Edit) :
    Gives (Edit.apply d edit) Document.IsValid := by
  -- A case for each edit: what it reads is valid, and what it does keeps documents valid.
  cases edit with
  | new size settings =>
    have hsize (v) : Gives (liftM (LabelSize.ofRecord v)) LabelSize.IsValid :=
      gives_lift fun size h => (LabelSize.ofRecord_eq_ok h).1
    have hsettings (v) : Gives (liftM (Settings.ofRecord v)) Settings.IsValid :=
      gives_lift fun settings h => (Settings.ofRecord_eq_ok h).1
    have hinitial := Document.isValid_initial
    cases size with
    | none =>
      cases settings with
      | none => exact gives_pure hinitial
      | some v => exact (hsettings v).bind fun settings h =>
          gives_pure (Document.isValid_empty hinitial.size h)
    | some u =>
      refine (hsize u).bind fun size h => ?_
      cases settings with
      | none => exact gives_pure (Document.isValid_empty h hinitial.settings)
      | some v => exact (hsettings v).bind fun settings h' =>
          gives_pure (Document.isValid_empty h h')
  | load record => exact gives_lift fun result hrecord => Document.isValid_of_ofRecord hrecord
  | add element =>
    refine (gives_lift fun found hfound => Element.isValid_of_ofArgument? hfound).bind
      fun found hfound => ?_
    refine (gives_lift fun e he => hfound e (Element.present_eq_ok he)).bind fun e he => ?_
    exact gives_lift fun result hadd => h.of_add he hadd
  | create kind fields =>
    refine (gives_lift fun _ _ => trivial).bind fun given _ => ?_
    refine (createElement_gives kind given).bind fun e he => ?_
    exact gives_lift fun result hadd => h.of_add he hadd
  | update id changes =>
    refine (gives_lift fun _ _ => trivial).bind fun changes _ => ?_
    exact gives_lift fun result hupdate => h.of_update hupdate
  | delete id => exact gives_pure (h.filter _)
  | duplicate id offset =>
    rw [apply, Document.duplicate]
    cases hfind : d.find? id with
    | none => exact gives_pure h
    | some e =>
      have he := h.elements e (Document.find?_spec hfind).1
      refine (Element.clone_gives he _ _).bind fun copy hcopy => ?_
      exact gives_lift fun result hadd => h.of_add hcopy hadd
  | clear => exact gives_pure (h.withElements (fun e he => nomatch he) List.nodup_nil)
  | replace elements =>
    rw [apply]
    -- Elements take the places of those with their ids, and the others are passed over.
    cases elements.items? with
    | none => exact gives_throw _ _
    | some items =>
      refine (gives_lift fun elements helements => Element.isValid_of_ofArguments helements).bind
        fun elements helements => ?_
      exact gives_pure (h.replaceElements helements)
  | move id dx dy => exact gives_lift_fault fun result hmove => h.of_moveBy hmove
  | align ids mode =>
    refine (gives_lift fun _ _ => trivial).bind fun ids _ => ?_
    refine (gives_lift fun _ _ => trivial).bind fun mode _ => ?_
    exact gives_lift_fault fun result halign => h.of_align halign
  | distribute ids direction =>
    refine (gives_lift fun _ _ => trivial).bind fun ids _ => ?_
    refine (gives_lift fun _ _ => trivial).bind fun direction _ => ?_
    exact gives_lift_fault fun result hdistribute => h.of_distribute hdistribute
  | bringToFront id => exact gives_pure (h.of_restacks (Document.restacks_bringToFront h.ids id))
  | sendToBack id => exact gives_pure (h.of_restacks (Document.restacks_sendToBack h.ids id))
  | setSize record =>
    refine (gives_lift fun size hsize => (LabelSize.ofRecord_eq_ok hsize).1).bind
      fun size hsize => ?_
    exact gives_pure ⟨hsize, h.elements, h.ids, h.settings⟩
  | setStandardSize name =>
    refine (gives_lift fun size hsize => LabelSize.isValid_of_find hsize).bind
      fun size hsize => ?_
    exact gives_pure ⟨hsize, h.elements, h.ids, h.settings⟩
  | toggleGrid => exact gives_pure ⟨h.size, h.elements, h.ids, h.settings⟩
  | toggleRulers => exact gives_pure ⟨h.size, h.elements, h.ids, h.settings⟩
  | setGridSize gridSize => exact gives_lift fun result hresult => h.of_withSettings hresult
  | setUnits units => exact gives_lift fun result hresult => h.of_withSettings hresult
  | applyTemplate template merge =>
    refine (gives_lift fun t ht => LabelTemplate.isValid_size_of_ofDatum ht).bind fun t ht => ?_
    cases merge with
    | true => exact t.mergeInto_gives h
    | false => exact LabelTemplate.replaceIn_gives h ht
  | resolve context => exact gives_pure (h.resolve context)
  | roundTrip => exact gives_lift fun result hresult => h.of_roundTrip hresult

namespace Session

/-- What an edit gives of the document, and the document has of itself, the step leaves:
a step that fails leaves the document as it was. -/
theorem step_of_gives {s : Session} {edit : Edit} {P : Document Number → Prop}
    (hgives : Gives (Edit.apply s.document edit) P) (hstays : P s.document) :
    P (s.step edit).2.document ∧ ∀ d, (s.step edit).1 = .ok d → P d := by
  have hgives := hgives s.supply
  rw [step]
  cases hrun : (Edit.apply s.document edit).run s.supply with
  | mk result supply =>
    rw [hrun] at hgives
    cases result with
    | ok d =>
      have hd := hgives d rfl
      refine ⟨hd, fun d' hd' => ?_⟩
      cases hd'
      exact hd
    | error e => exact ⟨hstays, fun d hd => nomatch hd⟩

/-- What every edit of a history keeps, the run keeps, and all documents on its way have. -/
theorem run_of_gives {P : Document Number → Prop} {edits : List Edit}
    (hgives : ∀ edit ∈ edits, ∀ d, P d → Gives (Edit.apply d edit) P) {s : Session}
    (h : P s.document) :
    P (s.run edits).2.document ∧ ∀ d, .ok d ∈ (s.run edits).1 → P d := by
  -- By induction on the edits, for every session with such a document.
  induction edits generalizing s with
  | nil => exact ⟨h, fun d hd => nomatch hd⟩
  | cons edit edits ih =>
    obtain ⟨hnext, hresult⟩ := step_of_gives (hgives edit List.mem_cons_self _ h) h
    obtain ⟨hlast, hresults⟩ := ih (fun e he => hgives e (List.mem_cons_of_mem _ he)) hnext
    refine ⟨hlast, fun d hd => ?_⟩
    rcases List.mem_cons.mp hd with hd | hd
    · exact hresult d hd.symm
    · exact hresults d hd

/-- A run keeps the document valid, and so are all documents on its way. -/
theorem isValid_of_run {s : Session} (h : s.document.IsValid) (edits : List Edit) :
    (s.run edits).2.document.IsValid ∧ ∀ d, .ok d ∈ (s.run edits).1 → d.IsValid :=
  run_of_gives (fun edit _ _ hd => Edit.apply_gives hd edit) h

/-- In a session that starts with the empty document, every document passes the checks of
all its parts, whatever ids are issued and whatever edits are made: the last one and those
that the edits gave. -/
theorem passesChecks_of_run (supply : IdSupply) (edits : List Edit) :
    (run ⟨supply, Document.initial⟩ edits).2.document.PassesChecks ∧
      ∀ d, .ok d ∈ (run ⟨supply, Document.initial⟩ edits).1 → d.PassesChecks := by
  obtain ⟨hlast, hresults⟩ :=
    isValid_of_run (s := ⟨supply, Document.initial⟩) Document.isValid_initial edits
  exact ⟨hlast.passesChecks, fun d hd => (hresults d hd).passesChecks⟩

end Session

end LabelLayout
