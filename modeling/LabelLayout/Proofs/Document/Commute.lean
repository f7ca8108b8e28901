import LabelLayout.Proofs.Document.Move
import LabelLayout.Proofs.Geometry.Align

/-!
# `LabelLayout.Proofs.Document.Commute`: edits of different elements

An update, a move and a deletion are written in different ways, but they come to one thing: what
becomes of the element with an id is found from that element and the settings alone
(`Document.Change.outcome`), and put in its place (`Document.put`). So two of them at different
ids neither see nor touch what the other one does.

Bringing an element to the front and sending it to the back also come to one thing: the elements
whose ids pass a test go below the others (`Document.sink`). An edit that keeps the ids in their
places leaves such a test with the answers it had, and an alignment by edges takes its goal from
the elements in whatever order they are given (`Geometry.align_perm`, and
`Geometry.reorders_align` for left and top edges, where an alignment may fail).

`Document.edits_commute` states both.
-/

set_option autoImplicit false

namespace LabelLayout

/-- The id is not among changes that pass their check. -/
theorem Members.lookup_id_of_checkChanges {changes : Members}
    (h : changes.checkChanges = .ok ()) : changes.lookup "id" = none := by
  rw [checkChanges] at h
  cases hid : changes.lookup "id" with
  | none => rfl
  | some v =>
    -- One of the two guards is on.
    rw [show changes.has "id" = true from congrArg Option.isSome hid] at h
    cases hdocument : changes.has "element" <;> simp [hdocument] at h

/-- A changed element has the id that it had. -/
theorem Element.id_of_modify {e changed : Element Number} {changes : Members}
    (h : e.modify changes = .ok changed) : changed.id = e.id := by
  obtain ⟨_, hallowed, h⟩ := bind_eq_ok.mp h
  obtain ⟨_, -, h⟩ := bind_eq_ok.mp h
  obtain ⟨-, -, hfields⟩ := Element.assemble_eq_ok.mp h
  have hid : Fields.ofMembers changes e.get .id = e.get .id := by
    show (changes.lookup "id").getD _ = _
    rw [Members.lookup_id_of_checkChanges hallowed]
    rfl
  exact Value.str.inj ((hfields .id (Kind.id_mem_inputs _)).symm.trans hid)

namespace Document

/-! ### Places -/

section

variable {α : Type} {d : Document α} {i j : String} {u v : Option (Element α)}

/-- The document with something else in the place of the element with an id, or with nothing
there. -/
def put (d : Document α) (id : String) (u : Option (Element α)) : Document α :=
  { d with elements := d.elements.filterMap fun e => if e.id = id then u else some e }

/-- Where there is no element with the id, nothing is put. -/
theorem put_of_find?_eq_none (h : d.find? i = none) (u : Option (Element α)) : d.put i u = d := by
  have hne : ∀ e ∈ d.elements, e.id ≠ i := by simpa [find?] using h
  have hkept : d.elements.filterMap (fun e => if e.id = i then u else some e) = d.elements := by
    rw [List.filterMap_congr fun e he => if_neg (hne e he), List.filterMap_some]
  rw [put, hkept]

/-- An element that is put in its own place stays there. -/
theorem put_find? (hids : d.ids.Nodup) (i : String) : d.put i (d.find? i) = d := by
  cases hfind : d.find? i with
  | none => exact put_of_find?_eq_none hfind _
  | some e =>
    obtain ⟨he, rfl⟩ := find?_spec hfind
    have hkept : ∀ o ∈ d.elements, (if o.id = e.id then some e else some o) = some o := by
      intro o ho
      by_cases hid : o.id = e.id
      · rw [if_pos hid, eq_of_id_eq hids ho he hid]
      · rw [if_neg hid]
    rw [put, List.filterMap_congr hkept, List.filterMap_some]

/-- An element takes the place of the one with its id. -/
theorem put_some {e : Element α} (hid : e.id = i) : d.put i (some e) = d.replaceElements [e] := by
  rw [replaceElements_singleton d rfl, put, ← List.filterMap_eq_map, hid]
  congr 1
  refine List.filterMap_congr fun o _ => ?_
  rw [Function.comp_apply, apply_ite some]

/-- What is put in the place of another id is passed by. -/
theorem bind_put_of_ne (hne : i ≠ j) (hu : ∀ e ∈ u, e.id = i) :
    (u.bind fun e => if e.id = j then v else some e) = u := by
  cases u with
  | none => rfl
  | some e =>
    have hid : e.id ≠ j := hu e rfl ▸ hne
    rw [Option.bind_some, if_neg hid]

/-- What is put in places of different ids may be put there in any order. -/
theorem put_comm (hne : i ≠ j) (hu : ∀ e ∈ u, e.id = i) (hv : ∀ e ∈ v, e.id = j) :
    (d.put i u).put j v = (d.put j v).put i u := by
  simp only [put, List.filterMap_filterMap]
  -- Member by member: none has both ids, and what is put for one does not have the other.
  congr 1
  refine List.filterMap_congr fun e _ => ?_
  by_cases hi : e.id = i
  · have hj : e.id ≠ j := hi ▸ hne
    rw [if_pos hi, if_neg hj, bind_put_of_ne hne hu, Option.bind_some, if_pos hi]
  · rw [if_neg hi, Option.bind_some]
    by_cases hj : e.id = j
    · rw [if_pos hj, bind_put_of_ne hne.symm hv]
    · rw [if_neg hj, Option.bind_some, if_neg hi]

/-- What is put somewhere has the id of what was there. -/
theorem ids_put_sublist (d : Document α) (hu : ∀ e ∈ u, e.id = i) :
    (d.put i u).ids.Sublist d.ids := by
  obtain ⟨size, elements, settings⟩ := d
  simp only [ids, put]
  -- Along the list every id is kept, but for one whose place may be left empty.
  induction elements with
  | nil => exact .slnil
  | cons o rest ih =>
    rw [List.filterMap_cons, List.map_cons]
    by_cases ho : o.id = i
    · rw [if_pos ho]
      cases u with
      | none => exact ih.cons _
      | some e =>
        show (e.id :: _).Sublist _
        rw [hu e rfl, ← ho]
        exact ho ▸ ih.cons_cons _
    · rw [if_neg ho]
      exact ih.cons_cons _

theorem nodup_put (hids : d.ids.Nodup) (hu : ∀ e ∈ u, e.id = i) : (d.put i u).ids.Nodup :=
  hids.sublist (ids_put_sublist d hu)

/-- Elements with other ids are found as before. -/
theorem find?_put_of_ne (hids : d.ids.Nodup) (hne : i ≠ j) (hu : ∀ e ∈ u, e.id = i) :
    (d.put i u).find? j = d.find? j := by
  -- As the ids are distinct, what is found is a member with the id.
  ext e
  rw [find?_eq_some_iff (nodup_put hids hu), find?_eq_some_iff hids]
  refine and_congr_left fun hj => ?_
  show e ∈ d.elements.filterMap _ ↔ _
  rw [List.mem_filterMap]
  constructor
  · rintro ⟨o, ho, hput⟩
    split at hput
    · exact absurd ((hu e hput).symm.trans hj) hne
    · exact Option.some.inj hput ▸ ho
  · intro he
    exact ⟨e, he, if_neg (hj ▸ hne.symm)⟩

end

/-! ### Changes -/

/-- What an edit can do to the element with an id. -/
inductive Change where
  | update (changes : Members)
  | move (dx dy : Datum)
  | delete

namespace Change

/-- The document after a change of the element with an id. -/
def apply (d : Document Number) (id : String) : Change → Except Error (Document Number)
  | .update changes => d.update id changes
  | .move dx dy => liftM (d.moveBy id dx dy)
  | .delete => .ok (d.delete id)

/-- Where a move ends that starts at an element. -/
def moved (d : Document Number) (e : Element Number) (dx dy : Datum) :
    Except Fault (Element Number) := do
  let x ← Scalar.add e.frame.x (← dx.operand)
  let y ← Scalar.add e.frame.y (← dy.operand)
  let x ← d.settle x
  let y ← d.settle y
  e.translate (← Scalar.sub x e.frame.x) (← Scalar.sub y e.frame.y)

/-- What becomes of an element, or of there being none. Of the document only the settings
matter. -/
def outcome (d : Document Number) (found : Option (Element Number)) :
    Change → Except Error (Option (Element Number))
  | .update changes => do
    if changes.has "document" then throw (.unexpectedArgument "document")
    if changes.has "element_id" then throw (.unexpectedArgument "element_id")
    match found with
    | none => return none
    | some e => return some (← e.modify changes)
  | .move dx dy =>
    match found with
    | none => .ok none
    | some e => if e.isLocked then .ok (some e) else liftM ((moved d e dx dy).map some)
  | .delete => .ok none

variable {d : Document Number} {id : String} {u : Option (Element Number)}

/-- A move ends with the element in its place. -/
theorem moveBy_eq_map {e : Element Number} (hfind : d.find? id = some e)
    (hfree : e.isLocked = false) (dx dy : Datum) :
    d.moveBy id dx dy = (moved d e dx dy).map fun m => d.replaceElements [m] := by
  rw [moveBy, hfind]
  simp only [hfree, Bool.false_eq_true, if_false, moveTo, moved, map_bind]
  rfl

theorem id_of_moved {e m : Element Number} {dx dy : Datum} (h : moved d e dx dy = .ok m) :
    m.id = e.id := by
  simp only [moved, bind_eq_ok] at h
  obtain ⟨_, -, _, -, _, -, _, -, _, -, _, -, _, -, _, -, h⟩ := h
  exact Element.id_of_translate h

/-- What becomes of the element with an id has that id. -/
theorem id_of_outcome {c : Change} (h : c.outcome d (d.find? id) = .ok u) :
    ∀ o ∈ u, o.id = id := by
  rintro o rfl
  cases hfind : d.find? id with
  | none =>
    rw [hfind] at h
    cases c with
    | update changes =>
      obtain ⟨-, -, h⟩ := (guard_eq_ok.trans (and_congr_right' guard_eq_ok)).mp h
      cases h
    | move dx dy => cases h
    | delete => cases h
  | some e =>
    obtain ⟨-, hid⟩ := find?_spec hfind
    rw [hfind] at h
    cases c with
    | update changes =>
      obtain ⟨-, -, h⟩ := (guard_eq_ok.trans (and_congr_right' guard_eq_ok)).mp h
      obtain ⟨changed, hchanged, h⟩ := bind_eq_ok.mp h
      cases h
      exact (Element.id_of_modify hchanged).trans hid
    | move dx dy =>
      simp only [outcome] at h
      split at h
      · cases h
        exact hid
      · obtain ⟨m, hm, h⟩ := map_eq_ok.mp (lift_eq_ok.mp h)
        cases h
        exact (id_of_moved hm).trans hid
    | delete => cases h

theorem update_eq (id : String) (changes : Members) :
    d.update id changes = (outcome d (d.find? id) (.update changes)).map (d.put id) := by
  simp only [Document.update, outcome]
  cases changes.has "document" with
  | true => rfl
  | false =>
    cases changes.has "element_id" with
    | true => rfl
    | false =>
      cases hfind : d.find? id with
      | none => exact congrArg Except.ok (put_of_find?_eq_none hfind none).symm
      | some e =>
        cases hchanged : e.modify changes with
        | error err => simp only [hchanged]; rfl
        | ok changed =>
          have hid : changed.id = id := (Element.id_of_modify hchanged).trans (find?_spec hfind).2
          simp only [hchanged]
          exact congrArg Except.ok (put_some hid).symm

theorem moveBy_eq (hids : d.ids.Nodup) (id : String) (dx dy : Datum) :
    (liftM (d.moveBy id dx dy) : Except Error (Document Number)) =
      (outcome d (d.find? id) (.move dx dy)).map (d.put id) := by
  cases hfind : d.find? id with
  | none =>
    rw [moveBy, hfind]
    exact congrArg Except.ok (put_of_find?_eq_none hfind none).symm
  | some e =>
    cases hlocked : e.isLocked with
    | true =>
      simp only [moveBy, outcome, hfind, hlocked, if_true]
      rw [← hfind]
      exact congrArg Except.ok (put_find? hids id).symm
    | false =>
      rw [moveBy_eq_map hfind hlocked]
      simp only [outcome, hlocked, Bool.false_eq_true, if_false]
      cases hmoved : moved d e dx dy with
      | error f => rfl
      | ok m =>
        have hid : m.id = id := (id_of_moved hmoved).trans (find?_spec hfind).2
        exact congrArg Except.ok (put_some hid).symm

/-- A deletion leaves nothing in the place of an element. -/
theorem delete_eq (d : Document Number) (id : String) : d.delete id = d.put id none := by
  rw [Document.delete, put, ← List.filterMap_eq_filter]
  congr 1
  refine List.filterMap_congr fun e _ => ?_
  by_cases hid : e.id = id <;> simp [hid]

/-- A change puts what becomes of the element in its place. -/
theorem apply_eq (hids : d.ids.Nodup) (id : String) (c : Change) :
    c.apply d id = (c.outcome d (d.find? id)).map (d.put id) := by
  cases c with
  | update changes => exact update_eq id changes
  | move dx dy => exact moveBy_eq hids id dx dy
  | delete => exact congrArg Except.ok (delete_eq d id)

/-- What becomes of an element does not depend on the other elements. -/
theorem outcome_congr {d' : Document Number} (h : d'.settings = d.settings) (c : Change)
    (found : Option (Element Number)) : c.outcome d' found = c.outcome d found := by
  cases c with
  | move dx dy =>
    have hmoved (e : Element Number) : moved d' e dx dy = moved d e dx dy := by
      simp only [moved, settle, h]
    simp only [outcome, hmoved]
  | _ => rfl

section

variable {i j : String} {v : Option (Element Number)}

/-- A change does not see what is in the place of another id, and leaves it there. -/
theorem apply_put (hids : d.ids.Nodup) (hne : i ≠ j) (hv : ∀ e ∈ v, e.id = j) (c : Change) :
    c.apply (d.put j v) i = (c.apply d i).map fun r => r.put j v := by
  rw [apply_eq (nodup_put hids hv), apply_eq hids, find?_put_of_ne hids hne.symm hv,
    outcome_congr (d := d) rfl, map_map]
  exact map_congr_of_ok fun u hu => put_comm hne.symm hv (id_of_outcome hu)

/-- What a change gives is the document with something in its place. -/
theorem exists_put_of_apply (hids : d.ids.Nodup) {c : Change} {result : Document Number}
    (h : c.apply d j = .ok result) : ∃ v, (∀ e ∈ v, e.id = j) ∧ result = d.put j v := by
  rw [apply_eq hids] at h
  obtain ⟨v, hv, rfl⟩ := map_eq_ok.mp h
  exact ⟨v, id_of_outcome hv, rfl⟩

/-- Two changes of different elements give the same in any order. -/
theorem apply_comm (hids : d.ids.Nodup) (hne : i ≠ j) {a b : Change} {d₁ d₂ : Document Number}
    (ha : a.apply d i = .ok d₁) (hb : b.apply d j = .ok d₂) :
    ∃ both, b.apply d₁ j = .ok both ∧ a.apply d₂ i = .ok both := by
  obtain ⟨u, hu, rfl⟩ := exists_put_of_apply hids ha
  obtain ⟨v, hv, rfl⟩ := exists_put_of_apply hids hb
  refine ⟨(d.put i u).put j v, ?_, ?_⟩
  · rw [apply_put hids hne.symm hu, hb, put_comm hne hu hv]
    rfl
  · rw [apply_put hids hne hv, ha]
    rfl

/-- A change fails as it does after a change of another element. -/
theorem apply_eq_error_iff (hids : d.ids.Nodup) (hne : i ≠ j) {a b : Change}
    {d₂ : Document Number} (hb : b.apply d j = .ok d₂) (e : Error) :
    a.apply d₂ i = .error e ↔ a.apply d i = .error e := by
  obtain ⟨v, hv, rfl⟩ := exists_put_of_apply hids hb
  rw [apply_put hids hne hv, map_eq_error]

end

end Change

/-! ### The paint order -/

section

variable {α : Type} {d : Document α} {below : String → Bool}

/-- The elements whose ids pass a test, below the others. -/
def sink (below : String → Bool) (d : Document α) : Document α :=
  { d with elements := d.elements.filter (fun o => below o.id) ++
      d.elements.filter fun o => !below o.id }

theorem bringToFront_eq_sink (hids : d.ids.Nodup) (id : String) :
    d.bringToFront id = d.sink (· != id) := by
  simp [bringToFront_eq hids, sink, bne]

theorem sendToBack_eq_sink (hids : d.ids.Nodup) (id : String) :
    d.sendToBack id = d.sink (· == id) :=
  sendToBack_eq hids id

/-- The elements are the same. -/
theorem perm_sink (below : String → Bool) (d : Document α) :
    (d.sink below).elements.Perm d.elements :=
  List.filter_append_perm (fun o : Element α => below o.id) d.elements

/-- What is put in the place of an element lies below the others if that did. -/
theorem put_sink {i : String} {u : Option (Element α)} (hu : ∀ e ∈ u, e.id = i) :
    (d.sink below).put i u = (d.put i u).sink below := by
  -- Each test lets pass what is put if it let pass what was there.
  have hfilter (test : String → Bool) (e : Element α) :
      (if test e.id = true then (if e.id = i then u else some e) else none) =
        (if e.id = i then u else some e).filter fun o => test o.id := by
    by_cases hid : e.id = i
    · rw [if_pos hid]
      cases u with
      | none => simp
      | some o => simp [hu o rfl, hid, Option.filter]
    · simp [hid, Option.filter]
  simp only [put, sink, List.filterMap_append, List.filterMap_filter, List.filter_filterMap]
  congr 2
  · exact List.filterMap_congr fun e _ => hfilter below e
  · exact List.filterMap_congr fun e _ => hfilter (fun id => !below id) e

/-- An element that is replaced keeps its id. -/
theorem id_replaced (updated : List (Element α)) (e : Element α) :
    ((updated.reverse.find? fun u => u.id == e.id).getD e).id = e.id := by
  cases hfind : updated.reverse.find? fun u => u.id == e.id with
  | none => rfl
  | some u => simpa using List.find?_some hfind

/-- Elements that are replaced lie below the others if they did. -/
theorem replaceElements_sink (updated : List (Element α)) :
    (d.sink below).replaceElements updated = (d.replaceElements updated).sink below := by
  have hfilter (test : String → Bool) : d.elements.filter ((fun o : Element α => test o.id) ∘
      fun e => (updated.reverse.find? fun u => u.id == e.id).getD e) =
        d.elements.filter fun o => test o.id :=
    List.filter_congr fun e _ => congrArg test (id_replaced updated e)
  simp only [replaceElements, sink, List.map_append, List.filter_map, hfilter below,
    hfilter fun id => !below id]

/-- Of several elements, each with an id of its own, the order does not matter. -/
theorem replaceElements_perm {updated updated' : List (Element α)}
    (hperm : updated'.Perm updated) (hids : (updated.map Element.id).Nodup) :
    d.replaceElements updated' = d.replaceElements updated := by
  have hrev : updated'.reverse.Perm updated.reverse :=
    (List.reverse_perm updated').trans (hperm.trans (List.reverse_perm updated).symm)
  have hnodup : (updated.reverse.map Element.id).Nodup :=
    ((List.reverse_perm updated).map _).nodup_iff.mpr hids
  have hfind (id : String) :
      ({ d with elements := updated'.reverse } : Document α).find? id =
        ({ d with elements := updated.reverse } : Document α).find? id :=
    find?_of_perm (d := { d with elements := updated.reverse }) hrev hnodup id
  simp only [find?] at hfind
  simp only [replaceElements, hfind]

end

section

variable {d : Document Number} {below : String → Bool}

/-- A change of an element leaves the paint order as it is. -/
theorem Change.apply_sink (hids : d.ids.Nodup) (id : String) (c : Change) :
    c.apply (d.sink below) id = (c.apply d id).map (sink below) := by
  have hperm := perm_sink below d
  rw [apply_eq (nodup_of_perm hperm hids), apply_eq hids, find?_of_perm hperm hids,
    outcome_congr (d := d) rfl, map_map]
  exact map_congr_of_ok fun u hu => put_sink (id_of_outcome hu)

/-- Lining elements up keeps all ids in their places. -/
theorem ids_align {names : List String} {mode : AlignMode} {aligned : Document Number}
    (h : d.align names mode = .ok aligned) : aligned.ids = d.ids := by
  obtain ⟨result, -, h⟩ := bind_eq_ok.mp h
  cases h
  exact ids_replaceElements d result

/-- Where the order of the elements that are lined up does not matter, the paint order does not,
and lining the elements up leaves it as it is. -/
theorem align_sink (hids : d.ids.Nodup) {names : List String} {mode : AlignMode}
    (h : ∀ elements', elements'.Perm (d.movable names) →
      Geometry.Reorders (Geometry.align (d.movable names) mode) (Geometry.align elements' mode))
    (below : String → Bool) :
    (d.sink below).align names mode = (d.align names mode).map (sink below) := by
  have hmovable : ((d.sink below).movable names).Perm (d.movable names) :=
    (perm_sink below d).filter _
  rw [align, align]
  obtain ⟨result, result', hresult, hresult', hperm⟩ | ⟨f, hf, hf'⟩ := h _ hmovable
  · have hupdated : (result.map Element.id).Nodup := by
      rw [Geometry.ids_of_align hresult]
      exact hids.sublist (List.filter_sublist.map _)
    rw [hresult, hresult', ok_bind, ok_bind, replaceElements_perm hperm hupdated,
      replaceElements_sink]
    rfl
  · rw [hf, hf']
    rfl

/-- Then it comes to the same to restack an element before the others are lined up and after. -/
theorem align_restacked (hids : d.ids.Nodup) {names : List String} {mode : AlignMode}
    (h : ∀ elements', elements'.Perm (d.movable names) →
      Geometry.Reorders (Geometry.align (d.movable names) mode) (Geometry.align elements' mode))
    (k : String) :
    (d.bringToFront k).align names mode = (d.align names mode).map (fun r => r.bringToFront k) ∧
    (d.sendToBack k).align names mode = (d.align names mode).map fun r => r.sendToBack k := by
  have hnodup {aligned : Document Number} (haligned : d.align names mode = .ok aligned) :
      aligned.ids.Nodup := ids_align haligned ▸ hids
  rw [bringToFront_eq_sink hids, sendToBack_eq_sink hids, align_sink hids h, align_sink hids h]
  exact ⟨map_congr_of_ok fun r hr => (bringToFront_eq_sink (hnodup hr) k).symm,
    map_congr_of_ok fun r hr => (sendToBack_eq_sink (hnodup hr) k).symm⟩

/-- Edits of different elements commute, and so do edits of elements and of the paint order.

An update, a move and a deletion of elements with different ids give the same document in any
order. Either of them fails after the other one exactly as it fails by itself. Bringing an element
to the front, or sending it to the back, comes to the same before a change of any element and
after it, in a failure too. The same holds of lining elements of whole coordinates and extents up
by their edges, which does not fail, and of lining elements of whole coordinates up by their left
or their top edges, which does not fail if they have bounds. -/
theorem edits_commute (hd : d.IsValid) :
    (∀ (i j : String) (a b : Change), i ≠ j →
      (∀ d₁ d₂, a.apply d i = .ok d₁ → b.apply d j = .ok d₂ →
        ∃ both, b.apply d₁ j = .ok both ∧ a.apply d₂ i = .ok both) ∧
      ∀ d₂, b.apply d j = .ok d₂ → ∀ e, a.apply d₂ i = .error e ↔ a.apply d i = .error e) ∧
    (∀ (k i : String) (c : Change),
      c.apply (d.bringToFront k) i = (c.apply d i).map (fun r => r.bringToFront k) ∧
      c.apply (d.sendToBack k) i = (c.apply d i).map fun r => r.sendToBack k) ∧
    (∀ (k : String) (names : List String) (mode : AlignMode), mode.isEdge = true →
      (∀ e ∈ d.movable names, e.IsMeasured Scalar.Reading.integer) →
      ∃ aligned, d.align names mode = .ok aligned ∧
        (d.bringToFront k).align names mode = .ok (aligned.bringToFront k) ∧
        (d.sendToBack k).align names mode = .ok (aligned.sendToBack k)) ∧
    ∀ (k : String) (names : List String) (mode : AlignMode), mode.isLeading = true →
      (∀ e ∈ d.movable names, e.IsPlaced Scalar.Reading.integer) →
      (d.bringToFront k).align names mode = (d.align names mode).map (fun r => r.bringToFront k) ∧
      (d.sendToBack k).align names mode = (d.align names mode).map (fun r => r.sendToBack k) ∧
      ((∀ e ∈ d.movable names, ∃ b, e.bounds = .ok b) →
        ∃ aligned, d.align names mode = .ok aligned) := by
  have hspans (names : List String) (e) (he : e ∈ d.movable names) : e.Spans :=
    (hd.elements e (List.mem_filter.mp he).1).spans
  refine ⟨fun i j a b hne => ⟨fun d₁ d₂ ha hb => ?_, fun d₂ hb e => ?_⟩, fun k i c => ?_,
    fun k names mode hedge hwhole => ?_, fun k names mode hleading hplaced => ?_⟩
  · exact Change.apply_comm hd.ids hne ha hb
  · exact Change.apply_eq_error_iff hd.ids hne hb e
  · have hresult {r : Document Number} (h : c.apply d i = .ok r) : r.ids.Nodup := by
      obtain ⟨u, hu, rfl⟩ := Change.exists_put_of_apply hd.ids h
      exact nodup_put hd.ids hu
    -- The document after the change has distinct ids as well, so a `sink` is an edit there too.
    rw [bringToFront_eq_sink hd.ids, sendToBack_eq_sink hd.ids, Change.apply_sink hd.ids,
      Change.apply_sink hd.ids]
    exact ⟨map_congr_of_ok fun r hr => (bringToFront_eq_sink (hresult hr) k).symm,
      map_congr_of_ok fun r hr => (sendToBack_eq_sink (hresult hr) k).symm⟩
  · have hmode := Geometry.measures_of_isEdge Scalar.Reading.integer hedge
    have hperm {elements' : List (Element Number)} (h : elements'.Perm (d.movable names)) :=
      Geometry.align_perm Scalar.Reading.isFaithful_integer not_false hmode
        (fun e he => Geometry.isAlignable_of_isMeasured hmode ⟨hwhole e he, hspans names e he⟩) h
    obtain ⟨result, -, hresult, -⟩ := hperm (.refl _)
    have haligned : d.align names mode = .ok (d.replaceElements result) := by
      rw [align, hresult]
      rfl
    obtain ⟨hfront, hback⟩ := align_restacked hd.ids (fun _ h => .inl (hperm h)) k
    rw [haligned] at hfront hback
    exact ⟨_, haligned, hfront, hback⟩
  · have hplaced (e) (he : e ∈ d.movable names) := And.intro (hplaced e he) (hspans names e he)
    have hperm {elements' : List (Element Number)} (h : elements'.Perm (d.movable names)) :=
      Geometry.reorders_align hleading hplaced h
    obtain ⟨hfront, hback⟩ := align_restacked hd.ids (fun _ h => hperm h) k
    refine ⟨hfront, hback, fun hbounds => ?_⟩
    obtain ⟨result, -, hresult, -⟩ :=
      Geometry.align_perm_leading hleading hplaced hbounds (.refl _)
    exact ⟨_, by rw [align, hresult]; rfl⟩

end

theorem isValid_overlapping : overlapping.IsValid where
  size := ⟨by decide +kernel, by decide +kernel⟩
  elements := by
    simp only [overlapping, List.forall_mem_cons]
    refine ⟨⟨by decide, ?_⟩, ⟨by decide, ?_⟩, ⟨by decide, ?_⟩, List.forall_mem_nil _⟩ <;>
      rintro line ⟨⟩
  ids := by decide
  settings := by show (Number.int 5).le (.int 0) = false; decide +kernel

/-- One picture is hidden and the other one moved, in any order. A change of the id of the first
is refused after the move, as before. The pictures are lined up by their right edges whichever of
them is in front. -/
theorem edits_commute_overlapping :
    (∃ d₁ d₂ both, overlapping.update "under" [("visible", .bool false)] = .ok d₁ ∧
      (liftM (overlapping.moveBy "over" (.num (.int 5)) (.num (.int (-5)))) :
        Except Error (Document Number)) = .ok d₂ ∧
      (liftM (d₁.moveBy "over" (.num (.int 5)) (.num (.int (-5)))) :
        Except Error (Document Number)) = .ok both ∧
      d₂.update "under" [("visible", .bool false)] = .ok both ∧
      d₂.update "under" [("id", .str "other")] = .error .fixedField) ∧
    overlapping.bringToFront "under" ≠ overlapping ∧
    ∃ aligned, overlapping.align ["over", "under"] .right = .ok aligned ∧
      (overlapping.bringToFront "under").align ["over", "under"] .right =
        .ok (aligned.bringToFront "under") := by
  obtain ⟨hchanges, -, halign, -⟩ := edits_commute isValid_overlapping
  obtain ⟨d₁, hupdate⟩ : ∃ d₁, overlapping.update "under" [("visible", .bool false)] = .ok d₁ :=
    exists_of_isOk (by decide +kernel)
  obtain ⟨d₂, hmove⟩ : ∃ d₂, (liftM (overlapping.moveBy "over" (.num (.int 5)) (.num (.int (-5)))) :
      Except Error (Document Number)) = .ok d₂ := exists_of_isOk (by decide +kernel)
  have hrefused : overlapping.update "under" [("id", .str "other")] = .error .fixedField := by
    decide +kernel
  obtain ⟨both, hboth, hboth'⟩ := (hchanges "under" "over" (.update [("visible", .bool false)])
    (.move (.num (.int 5)) (.num (.int (-5)))) (by decide)).1 d₁ d₂ hupdate hmove
  have hrefused' := ((hchanges "under" "over" (.update [("id", .str "other")])
    (.move (.num (.int 5)) (.num (.int (-5)))) (by decide)).2 d₂ hmove .fixedField).mpr hrefused
  have hwhole : ∀ e ∈ overlapping.movable ["over", "under"],
      e.IsMeasured Scalar.Reading.integer := by
    intro e he
    have hmem := (List.mem_filter.mp he).1
    simp only [overlapping, List.mem_cons, List.not_mem_nil, or_false] at hmem
    rcases hmem with rfl | rfl | rfl <;>
      refine ⟨⟨⟨_, rfl⟩, ⟨_, rfl⟩, ?_⟩, ⟨_, rfl⟩, ⟨_, rfl⟩⟩ <;> rintro line ⟨⟩
  obtain ⟨aligned, haligned, hfront, -⟩ := halign "under" ["over", "under"] .right rfl hwhole
  exact ⟨⟨d₁, d₂, both, hupdate, hmove, hboth, hboth', hrefused'⟩, by decide, aligned, haligned,
    hfront⟩

end Document

end LabelLayout
