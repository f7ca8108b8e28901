import LabelLayout.Proofs.Document.Session
import LabelLayout.Proofs.Element.Fresh
import Mathlib.Data.List.Find

/-!
# `LabelLayout.Proofs.Template.RoundTrip`: a document, its template, and back

The spec of an element holds every field but the id under its name, so the element that is
made of it is the same one under the next id (`instantiateSpec_spec`). None of the defaults
of its kind is used, and the extent of a line, which is in the spec but not read from it,
is derived to be what it was.

`LabelTemplate.instantiate_ofDocument` is the statement about a whole document. Its copies
are put in the place of what another document has, or on top of it. The latter is refused
when that document, which may come from a file, already has one of the ids that are next.
-/

set_option autoImplicit false

namespace LabelLayout

/-! ### The ids that are next -/

namespace IdSupply

/-- The ids that a supply issues next, so many of them. -/
def upcoming (supply : IdSupply) (count : Nat) : List String :=
  (List.range count).map fun i => supply.idAt (supply.issued + 1 + i)

/-- The supply that has issued so many more. -/
def advance (supply : IdSupply) (count : Nat) : IdSupply :=
  { supply with issued := supply.issued + count }

theorem length_upcoming (supply : IdSupply) (count : Nat) :
    (supply.upcoming count).length = count := by
  rw [upcoming, List.length_map, List.length_range]

theorem upcoming_succ (supply : IdSupply) (count : Nat) :
    supply.upcoming (count + 1) =
      supply.idAt (supply.issued + 1) :: (supply.advance 1).upcoming count := by
  rw [upcoming, List.range_succ_eq_map, List.map_cons, List.map_map]
  refine congrArg _ (List.map_congr_left fun i _ => ?_)
  show supply.idAt (supply.issued + 1 + (i + 1)) = supply.idAt (supply.issued + 1 + 1 + i)
  rw [Nat.add_assoc (supply.issued + 1), Nat.add_comm 1]

theorem advance_advance (supply : IdSupply) (m n : Nat) :
    (supply.advance m).advance n = supply.advance (m + n) := by
  rw [advance, advance, advance, Nat.add_assoc]

theorem nodup_upcoming (supply : IdSupply) (count : Nat) : (supply.upcoming count).Nodup :=
  List.Nodup.map (fun _ _ h => Nat.add_left_cancel (supply.idAt_injective h)) List.nodup_range

end IdSupply

/-! ### Fields by name -/

namespace Attribute

/-- Different fields have different names. -/
theorem name_injective {a b : Attribute} (h : a.name = b.name) : a = b := by
  have hall : ∀ a ∈ all, ∀ b ∈ all, a.name = b.name → a = b := by decide +kernel
  exact hall a (mem_all a) b (mem_all b) h

theorem name_ne_type (a : Attribute) : a.name ≠ "type" := by
  cases a <;> decide +kernel

theorem name_ne_kind (a : Attribute) : a.name ≠ "kind" := by
  cases a <;> decide +kernel

end Attribute

section

variable {attributes : List Attribute} {f : Attribute → Datum} {a : Attribute}

/-- A field is found under its name. -/
theorem lookup_name (ha : a ∈ attributes) :
    (attributes.map fun b => (b.name, f b)).lookup a.name = some (f a) := by
  induction attributes with
  | nil => exact absurd ha List.not_mem_nil
  | cons b rest ih =>
    rw [List.map_cons, List.lookup_cons]
    by_cases hab : a = b
    · subst hab
      rw [beq_self_eq_true]
    · rw [beq_false_of_ne fun h => hab (Attribute.name_injective h)]
      exact ih ((List.mem_cons.mp ha).resolve_left hab)

/-- Nothing is found under what is no name of the fields. -/
theorem not_has_name {name : String} (h : ∀ a ∈ attributes, a.name ≠ name) :
    Members.has (attributes.map fun b => (b.name, f b)) name = false := by
  have hlookup : (attributes.map fun b => (b.name, f b)).lookup name = none := by
    rw [List.lookup_eq_none_iff]
    intro member hmember
    obtain ⟨b, hb, rfl⟩ := List.mem_map.mp hmember
    exact bne_iff_ne.mpr (h b hb).symm
  rw [Members.has, hlookup]
  rfl

/-- Names of fields are allowed where those of all the fields are. -/
theorem checkNames_name (kind : Kind) (h : ∀ a ∈ attributes, a ∈ kind.attributes) :
    Members.checkNames kind.fieldNames (attributes.map fun b => (b.name, f b)) = .ok () := by
  rw [Members.checkNames]
  split
  · next name _ hfind =>
    obtain ⟨b, hb, hmember⟩ := List.mem_map.mp (List.mem_of_find?_eq_some hfind)
    obtain ⟨rfl, -⟩ := Prod.mk.inj hmember
    have hname : b.name ∈ kind.fieldNames := List.mem_map_of_mem (h b hb)
    simpa [hname] using List.find?_some hfind
  · rfl

end

/-! ### The spec of an element -/

namespace Element

variable {e : Element Number}

/-- The fields of a spec without its type, as they are handed to a new element. -/
theorem filter_spec (e : Element Number) :
    (e.spec.filter fun (name, _) => name != "type" && name != "id") =
      (e.kind.attributes.filter (· ≠ .id)).map fun a => (a.name, e.get a) := by
  rw [spec, List.filter_cons_of_neg (by simp), List.filter_eq_self]
  intro member hmember
  obtain ⟨a, ha, rfl⟩ := List.mem_map.mp hmember
  have hid : a ≠ .id := by simpa using (List.mem_filter.mp ha).2
  have hname : a.name ≠ "id" := fun h => hid (Attribute.name_injective (b := .id) h)
  simpa using ⟨a.name_ne_type, hname⟩

/-- Under another id only the id is another one. -/
theorem get_withId (e : Element Number) (id : String) {a : Attribute} (ha : a ≠ .id) :
    (e.withId id).get a = e.get a := by
  cases a with
  | id => exact absurd rfl ha
  | _ => rfl

/-- A valid element is assembled from its spec under another id. -/
theorem assemble_spec (h : e.IsValid) {id : String} (hid : id ≠ "") :
    Element.assemble e.kind (.ofMembers
      (("id", .str id) :: (e.kind.attributes.filter (· ≠ .id)).map fun a => (a.name, e.get a))
      e.kind.default) = .ok (e.withId id) := by
  refine assemble_eq_ok.mpr ⟨rfl, h.withId hid, fun a ha => ?_⟩
  have hmem : a ∈ e.kind.attributes := Kind.mem_attributes_of_mem_inputs ha
  rw [Fields.ofMembers]
  by_cases haid : a = .id
  · subst haid
    rfl
  · -- The field stands in the spec, so its default is not looked at.
    have hname : (a.name == "id") = false :=
      beq_false_of_ne fun h => haid (Attribute.name_injective (b := .id) h)
    rw [List.lookup_cons, hname, get_withId e id haid]
    show (List.lookup a.name _).getD _ = _
    rw [lookup_name (List.mem_filter.mpr ⟨hmem, by simpa using haid⟩), Option.getD_some]

end Element

/-- A new element takes the next id, and then its fields are looked at. -/
theorem run_createElement (kind : Kind) {given : Members} (hkind : given.has "kind" = false)
    (hid : given.has "id" = false) (supply : IdSupply) :
    (createElement (Choice.datum kind) given).run supply =
      (given.checkNames kind.fieldNames >>= fun _ => Element.assemble kind
        (.ofMembers (("id", .str (supply.idAt (supply.issued + 1))) :: given) kind.default),
      supply.advance 1) := by
  have hnamed : Kind.ofDatum? (Choice.datum kind) = .ok (some kind) :=
    congrArg Except.ok (Choice.ofName?_name kind)
  rw [createElement, hkind, hnamed]
  show ((if given.has "id" = true then _ else _ : Issuing (Element Number))).run supply = _
  rw [hid]
  show ((liftM (given.checkNames kind.fieldNames) >>= fun _ => liftM (Element.assemble _ _) :
    Issuing (Element Number))).run (supply.advance 1) = _
  rw [Issuing.run_bind, Issuing.run_lift]
  cases given.checkNames kind.fieldNames with
  | error e => rfl
  | ok _ => exact Issuing.run_lift _ _

/-- The element made of a valid element's spec is the same one under the next id. -/
theorem instantiateSpec_spec {e : Element Number} (h : e.IsValid) (supply : IdSupply) :
    (instantiateSpec e.spec).run supply =
      (.ok (e.withId (supply.idAt (supply.issued + 1))), supply.advance 1) := by
  have hid : ∀ a ∈ e.kind.attributes.filter (· ≠ .id), a.name ≠ "id" := fun a ha h => by
    simp [Attribute.name_injective (b := .id) h] at ha
  have hnames := checkNames_name (f := e.get) e.kind
    fun a ha => List.mem_of_mem_filter (p := (· ≠ .id)) ha
  -- The type is the first member, so it is found and taken out.
  have hrun : (instantiateSpec e.spec).run supply =
      (createElement (Choice.datum e.kind)
        (e.spec.filter fun (name, _) => name != "type" && name != "id")).run supply := rfl
  rw [hrun, Element.filter_spec, run_createElement e.kind
    (not_has_name fun a _ => a.name_ne_kind) (not_has_name hid), hnames, ok_bind,
    Element.assemble_spec h (supply.idAt_ne_empty _)]

/-! ### Documents -/

/-- Elements of valid elements' specs are the same ones under the next ids, in order. -/
theorem mapM_instantiateSpec {elements : List (Element Number)}
    (h : ∀ e ∈ elements, e.IsValid) (supply : IdSupply) :
    ((elements.map Element.spec).mapM instantiateSpec).run supply =
      (.ok (elements.zipWith Element.withId (supply.upcoming elements.length)),
        supply.advance elements.length) := by
  induction elements generalizing supply with
  | nil => rfl
  | cons e elements ih =>
    have hrest := ih (fun o ho => h o (List.mem_cons_of_mem _ ho)) (supply.advance 1)
    rw [List.map_cons, List.mapM_cons, Issuing.run_bind,
      instantiateSpec_spec (h e List.mem_cons_self)]
    -- The rest goes on with the ids that the first element has left.
    show ((_ : Issuing (List (Element Number))) >>= _).run _ = _
    rw [Issuing.run_bind, hrest, IdSupply.advance_advance, List.length_cons,
      IdSupply.upcoming_succ, List.zipWith_cons_cons, Nat.add_comm 1]
    rfl

theorem map_id_withId {elements : List (Element Number)} {ids : List String}
    (h : ids.length = elements.length) :
    (elements.zipWith Element.withId ids).map Element.id = ids := by
  induction elements generalizing ids with
  | nil =>
    rw [List.length_eq_zero_iff.mp h]
    rfl
  | cons e elements ih =>
    cases ids with
    | nil => cases h
    | cons id ids => exact congrArg (id :: ·) (ih (Nat.succ.inj h))

/-- Elements under other ids are of the same kinds and have the same fields but the id. -/
theorem forall₂_withId {elements : List (Element Number)} {ids : List String}
    (h : ids.length = elements.length) :
    List.Forall₂ (fun e copy => copy.kind = e.kind ∧ ∀ a, a ≠ .id → copy.get a = e.get a)
      elements (elements.zipWith Element.withId ids) := by
  induction elements generalizing ids with
  | nil => exact .nil
  | cons e elements ih =>
    cases ids with
    | nil => cases h
    | cons id ids =>
      exact .cons ⟨rfl, fun _ ha => e.get_withId id ha⟩ (ih (Nat.succ.inj h))

/-- The first of distinct ids that is repeated is the first that was seen before. -/
theorem firstRepeated?_go_of_nodup {ids : List String} (h : ids.Nodup) (seen : List String) :
    firstRepeated?.go seen ids = ids.find? seen.contains := by
  induction ids generalizing seen with
  | nil => rfl
  | cons id ids ih =>
    rw [List.nodup_cons] at h
    rw [firstRepeated?.go, List.find?_cons, ih h.2]
    cases seen.contains id with
    | true => rfl
    | false =>
      refine List.find?_congr fun other hother => ?_
      have hne : other ≠ id := fun heq => h.1 (heq ▸ hother)
      rw [List.contains_cons, beq_false_of_ne hne, Bool.false_or]

/-- Distinct ids that were not seen before are passed over. -/
theorem firstRepeated?_go_append {base : List String} (h : base.Nodup) {seen : List String}
    (hseen : ∀ id ∈ base, id ∉ seen) (more : List String) :
    firstRepeated?.go seen (base ++ more) = firstRepeated?.go (base.reverse ++ seen) more := by
  induction base generalizing seen with
  | nil => rfl
  | cons id base ih =>
    rw [List.nodup_cons] at h
    rw [List.forall_mem_cons] at hseen
    rw [List.cons_append, firstRepeated?.go, if_neg (by simpa using hseen.1), ih h.2,
      List.reverse_cons, List.append_assoc, List.singleton_append]
    intro other hother hmem
    rcases List.mem_cons.mp hmem with rfl | hmem
    · exact h.1 hother
    · exact hseen.2 other hother hmem

/-- Where distinct ids follow distinct ids, the first that is repeated is the first of the
latter that is one of the former. -/
theorem firstRepeated?_append {base more : List String} (hbase : base.Nodup)
    (hmore : more.Nodup) : firstRepeated? (base ++ more) = more.find? base.contains := by
  rw [firstRepeated?, firstRepeated?_go_append hbase fun _ _ => List.not_mem_nil,
    firstRepeated?_go_of_nodup hmore]
  refine List.find?_congr fun id _ => ?_
  rw [List.append_nil, List.contains_reverse]

/-- A picture that a supply has numbered. -/
def Document.numbered : Document Number where
  size := LabelSize.initial
  elements := [⟨⟨"element-1-000000000", .int 1, .int 2, .int 3, .int 4, .int 0, .bool false,
    .bool true⟩, .image ⟨"/a.png", .contain⟩⟩]
  settings := Settings.initial

theorem Document.isValid_numbered : numbered.IsValid :=
  isValid_initial.withElements
    (List.forall_mem_singleton.mpr ⟨by decide, fun _ h => nomatch h⟩) (List.nodup_singleton _)

namespace LabelTemplate

variable {d : Document Number} {t : LabelTemplate} {copies : List (Element Number)}
  {supply after : IdSupply}

theorem run_replaceIn (h : t.instantiate.run supply = (.ok copies, after))
    (other : Document Number) :
    (t.replaceIn other).run supply = (Document.make t.size copies other.settings, after) := by
  rw [replaceIn, Issuing.run_bind, h]
  exact Issuing.run_lift _ _

theorem run_mergeInto (h : t.instantiate.run supply = (.ok copies, after))
    (other : Document Number) :
    (t.mergeInto other).run supply =
      (other.withElements (other.elements ++ copies), after) := by
  rw [mergeInto, Issuing.run_bind, h]
  exact Issuing.run_lift _ _

/-- A valid document comes back from its template. Instantiating it gives the document's
size and, under the next ids, its elements in their order, of the same kinds and with the
same fields but the id. So does applying it in the place of what another document has,
which keeps its settings, and applying it on top of that, which keeps all it has as it is.
The latter is refused when the other document has one of the next ids, with the first of
these. -/
theorem instantiate_ofDocument (h : ∀ e ∈ d.elements, e.IsValid)
    (id name description category : Datum) (supply : IdSupply) :
    let t := ofDocument d id name description category
    let ids := supply.upcoming d.elements.length
    let copies := d.elements.zipWith Element.withId ids
    let after := supply.advance d.elements.length
    t.size = d.size ∧ t.instantiate.run supply = (.ok copies, after) ∧
      List.Forall₂ (fun e copy => copy.kind = e.kind ∧ ∀ a, a ≠ .id → copy.get a = e.get a)
        d.elements copies ∧
      copies.map Element.id = ids ∧
      ∀ other : Document Number, other.ids.Nodup →
        (t.replaceIn other).run supply = (.ok ⟨d.size, copies, other.settings⟩, after) ∧
        ((∀ id ∈ ids, id ∉ other.ids) → (t.mergeInto other).run supply =
          (.ok { other with elements := other.elements ++ copies }, after)) ∧
        ∀ shared, ids.find? other.ids.contains = some shared →
          (t.mergeInto other).run supply = (.error (.duplicateId shared), after) := by
  intro t ids copies after
  have hlength : ids.length = d.elements.length := supply.length_upcoming _
  have hrun : t.instantiate.run supply = (.ok copies, after) := mapM_instantiateSpec h supply
  have hcopies : copies.map Element.id = ids := map_id_withId hlength
  have hids : ids.Nodup := supply.nodup_upcoming _
  refine ⟨rfl, hrun, forall₂_withId hlength, hcopies, fun other hother => ⟨?_, ?_, ?_⟩⟩
  -- Nothing else is in the document, so only the copies' own ids count.
  · rw [run_replaceIn hrun, Document.make_eq_ok.mpr ⟨hcopies ▸ hids, rfl⟩]
    rfl
  · intro hdisjoint
    have hboth : ((other.elements ++ copies).map Element.id).Nodup := by
      rw [List.map_append, hcopies]
      exact hother.append hids fun id hid hid' => hdisjoint id hid' hid
    rw [run_mergeInto hrun, Document.withElements, Document.make_eq_ok.mpr ⟨hboth, rfl⟩]
  · intro shared hshared
    have hfirst : firstRepeated? ((other.elements ++ copies).map Element.id) = some shared := by
      rw [List.map_append, hcopies]
      exact (firstRepeated?_append hother hids).trans hshared
    rw [run_mergeInto hrun, Document.withElements, Document.make, hfirst]

/-- The sample comes back under the first two ids. It is put in the place of a picture, and on
top of itself, but not on top of a picture that has the first id. -/
theorem instantiate_ofDocument_sample :
    let supply : IdSupply := ⟨0, fun _ => "000000000"⟩
    let t := ofDocument Document.sample (.str "mine") (.str "Mine") (.str "") (.str "custom")
    let copies := Document.sample.elements.zipWith Element.withId
      ["element-1-000000000", "element-2-000000000"]
    (∀ e ∈ Document.sample.elements, e.IsValid) ∧
      t.instantiate.run supply = (.ok copies, ⟨2, supply.suffix⟩) ∧
      (t.replaceIn Document.numbered).run supply =
        (.ok ⟨Document.sample.size, copies, Document.numbered.settings⟩, ⟨2, supply.suffix⟩) ∧
      (t.mergeInto Document.sample).run supply =
        (.ok { Document.sample with elements := Document.sample.elements ++ copies },
          ⟨2, supply.suffix⟩) ∧
      (t.mergeInto Document.numbered).run supply =
        (.error (.duplicateId "element-1-000000000"), ⟨2, supply.suffix⟩) := by
  have hvalid := Document.isValid_sample.elements
  obtain ⟨-, hrun, -, -, happly⟩ := instantiate_ofDocument hvalid (.str "mine") (.str "Mine")
    (.str "") (.str "custom") ⟨0, fun _ => "000000000"⟩
  obtain ⟨hreplace, -, hrefused⟩ := happly Document.numbered (by decide)
  obtain ⟨-, hmerge, -⟩ := happly Document.sample (by decide)
  exact ⟨hvalid, hrun, hreplace, hmerge (by decide), hrefused "element-1-000000000" (by decide)⟩

/-- The document with an element of the first id is not what its own template can be put on
top of, once the ids start anew. -/
theorem mergeInto_numbered_ne :
    let supply : IdSupply := ⟨0, fun _ => "000000000"⟩
    let t := ofDocument Document.numbered (.str "mine") (.str "Mine") (.str "") (.str "custom")
    Document.numbered.IsValid ∧
      ∀ copies, ((t.mergeInto Document.numbered).run supply).1 ≠
        .ok { Document.numbered with elements := Document.numbered.elements ++ copies } := by
  refine ⟨Document.isValid_numbered, fun copies h => ?_⟩
  have hrefused : ((mergeInto (ofDocument Document.numbered (.str "mine") (.str "Mine") (.str "")
      (.str "custom")) Document.numbered).run ⟨0, fun _ => "000000000"⟩).1 =
        .error (.duplicateId "element-1-000000000") := by decide +kernel
  cases hrefused.symm.trans h

end LabelTemplate

end LabelLayout
