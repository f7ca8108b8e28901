import LabelLayout.Binding.Catalogue
import LabelLayout.Proofs.Binding.Bound
import LabelLayout.Proofs.Binding.Report

/-!
# `LabelLayout.Proofs.Binding.Preview`: what a sample context fills in

A context that has every path a body refers to leaves nothing of it open. `IsFilledIn` says what
then stands where, without saying how it is found: a bound text is the value of its field, any
other text its own characters with the value of every token between them, and a bound scan code
the letters and digits of its value (`isFilledIn_fillBody`).

The sample context is an object of objects, the fields of a category under their names. A path of
the catalogue leads to the value of its field (`Catalogue.resolve_key`). So a document that binds
to nothing else is filled in from it throughout, at any moment and for any user
(`Document.previews`).
-/

set_option autoImplicit false

namespace LabelLayout

namespace Binding

/-! ### Bodies filled in -/

/-- What stands in the place of a piece: a character itself, and for a token what a context has
for its path. -/
inductive Shows (context : Datum) : Piece → List Char → Prop
  | char (c : Char) : Shows context (.char c) [c]
  | token {path : List Char} {v : Datum} (hv : resolve context (String.ofList path) = some v) :
      Shows context (.token path) (printed v).toList

/-- The second body is the first with what a context has in every place that is bound. -/
inductive IsFilledIn (context : Datum) : Body Number → Body Number → Prop
  | field {t : TextBody Number} {field : String} {v : Datum}
      (hbound : boundField? t.isVariable t.dataField = some field)
      (hv : resolve context field = some v) :
      IsFilledIn context (.text t) (.text { t with content := printed v })
  | content {t : TextBody Number} {pieces : List Piece} {shown : List (List Char)}
      (hfree : boundField? t.isVariable t.dataField = none)
      (hcut : IsCut t.content.toList pieces) (hshown : List.Forall₂ (Shows context) pieces shown) :
      IsFilledIn context (.text t) (.text { t with content := String.ofList shown.flatten })
  | barcode {b : BarcodeBody Number} {path : String} {v : Datum}
      (hbound : IsBoundTo b.isVariable b.dataField b.value path) (hpath : Text.trimmed path ≠ "")
      (hv : resolve context path = some v) :
      IsFilledIn context (.barcode b) (.barcode { b with value := scannable v })
  | freeBarcode {b : BarcodeBody Number}
      (hfree : ∀ path, IsBoundTo b.isVariable b.dataField b.value path → Text.trimmed path = "") :
      IsFilledIn context (.barcode b) (.barcode b)
  | qrcode {q : QrBody Number} {path : String} {v : Datum}
      (hbound : IsBoundTo q.isVariable q.dataField q.value path) (hpath : Text.trimmed path ≠ "")
      (hv : resolve context path = some v) :
      IsFilledIn context (.qrcode q) (.qrcode { q with value := scannable v })
  | freeQrcode {q : QrBody Number}
      (hfree : ∀ path, IsBoundTo q.isVariable q.dataField q.value path → Text.trimmed path = "") :
      IsFilledIn context (.qrcode q) (.qrcode q)
  | other {body : Body Number} (hkind : body.kind ∉ [.text, .barcode, .qrcode]) :
      IsFilledIn context body body

/-- A context has what a path leads to, and the path can stand in a token. -/
structure Supplies (context : Datum) (path : String) : Prop where
  exists_value : ∃ v, resolve context path = some v
  noClose : '\x7d' ∉ path.toList

section

variable {context : Datum}

/-- A step of a way down. -/
theorem follow_of_member {v next : Datum} {key : String} (h : v.member? key = some next)
    (hnull : next ≠ .null) (keys : List String) : follow v (key :: keys) = follow next keys := by
  rw [follow, h]
  cases next with
  | null => exact absurd rfl hnull
  | _ => rfl

theorem resolve_trimmed (context : Datum) (path : String) :
    resolve context (Text.trimmed path) = resolve context path := by
  rw [Text.trimmed, resolve_trim, String.ofList_toList]

/-- A text is filled in with the value of each of its tokens. -/
theorem shows_fillPiece {cs : List Char}
    (h : ∀ path ∈ paths cs, ∃ v, resolve context (String.ofList path) = some v) :
    List.Forall₂ (Shows context) (scan cs) ((scan cs).map (fillPiece context)) := by
  rw [List.forall₂_map_right_iff, List.forall₂_same]
  intro piece hpiece
  cases piece with
  | char c => exact .char c
  | token path =>
    obtain ⟨v, hv⟩ := h path (mem_paths.mpr hpiece)
    have hfilled : fillPiece context (.token path) = (printed v).toList := by
      simp only [fillPiece, hv]
    rw [hfilled]
    exact .token hv

/-- A scan code takes the scannable part of what its path leads to, or keeps its value when it is
bound to no path but a blank one. -/
theorem fillCode_cases {isVariable : Datum} {dataField : Option String} {value : String}
    (hblank : resolve context "" = none)
    (h : ∀ path ∈ ((codePath? isVariable dataField value).filter (· ≠ "")).toList,
      ∃ v, resolve context path = some v) :
    (∃ path v, IsBoundTo isVariable dataField value path ∧ Text.trimmed path ≠ "" ∧
      resolve context path = some v ∧
      fillCode context (codePath? isVariable dataField value) value = scannable v) ∨
    ((∀ path, IsBoundTo isVariable dataField value path → Text.trimmed path = "") ∧
      fillCode context (codePath? isVariable dataField value) value = value) := by
  simp only [← codePath?_eq_some_iff]
  cases hcode : codePath? isVariable dataField value with
  | none => exact .inr ⟨nofun, rfl⟩
  | some path =>
    rw [hcode] at h
    by_cases htrim : Text.trimmed path = ""
    · -- A blank path leads nowhere.
      have hnone : resolve context path = none := by rw [← resolve_trimmed, htrim, hblank]
      refine .inr ⟨?_, by simp only [fillCode, Option.bind_some, hnone]⟩
      rintro _ ⟨⟩
      exact htrim
    · have hne : path ≠ "" := by
        rintro rfl
        exact htrim rfl
      obtain ⟨v, hv⟩ := h path (by simp [hne])
      exact .inl ⟨path, v, rfl, htrim, hv, by simp only [fillCode, Option.bind_some, hv]⟩

/-- A body is filled in throughout from a context that supplies all its paths. -/
theorem isFilledIn_fillBody {body : Body Number} (hblank : resolve context "" = none)
    (h : ∀ path ∈ bodyPaths body, Supplies context path) :
    IsFilledIn context body (fillBody context body) := by
  cases body with
  | text t =>
    rw [fillBody_text]
    cases hbound : boundField? t.isVariable t.dataField with
    | some field =>
      obtain ⟨⟨v, hv⟩, hclose⟩ := h field (List.mem_append_right _ (by simp [hbound]))
      have hne := (boundField?_eq_some_iff.mp hbound).2.2
      have hfill : fill context (tokenOf field) = printed v := by
        rw [fill_tokenOf context hne hclose, fieldText, hv]
      rw [Option.elim_some, hfill]
      exact .field hbound hv
    | none =>
      have hpaths : ∀ path ∈ paths t.content.toList,
          ∃ v, resolve context (String.ofList path) = some v := by
        intro path hpath
        obtain ⟨v, hv⟩ := (h _ (List.mem_append_left _ (List.mem_map_of_mem hpath))).exists_value
        exact ⟨v, by rwa [resolve_trim] at hv⟩
      rw [Option.elim_none, fill, List.flatMap_def]
      exact .content hbound (isCut_scan _) (shows_fillPiece hpaths)
  | barcode b =>
    rw [fillBody]
    rcases fillCode_cases hblank fun path hpath => (h path hpath).exists_value with
      ⟨path, v, hbound, hpath, hv, hfill⟩ | ⟨hfree, hfill⟩
    · rw [hfill]
      exact .barcode hbound hpath hv
    · rw [hfill]
      exact .freeBarcode hfree
  | qrcode q =>
    rw [fillBody]
    rcases fillCode_cases hblank fun path hpath => (h path hpath).exists_value with
      ⟨path, v, hbound, hpath, hv, hfill⟩ | ⟨hfree, hfill⟩
    · rw [hfill]
      exact .qrcode hbound hpath hv
    · rw [hfill]
      exact .freeQrcode hfree
  | image _ | shape _ | line _ => exact .other (by simp [Body.kind])

end

end Binding

/-! ### The sample context -/

namespace Catalogue

open Binding

variable {field : DataField}

/-- A field stands in its category. -/
theorem mem_categories (h : field ∈ fields) : field.category ∈ categories := by
  have hall : ∀ field ∈ fields, field.category ∈ categories := by decide
  exact hall field h

theorem nodup_categories : (categories.map id).Nodup := by decide

/-- The path of a field leads from its category to its name. -/
theorem keysOf_key (h : field ∈ fields) :
    keysOf field.key.toList = [field.category, field.name] := by
  have hall : ∀ field ∈ fields, keysOf field.key.toList = [field.category, field.name] := by
    decide +kernel
  exact hall field h

/-- No two fields of a category have one name. -/
theorem nodup_names {category : String} (h : category ∈ categories) :
    ((inCategory category).map DataField.name).Nodup := by
  have hall : ∀ category ∈ categories, ((inCategory category).map DataField.name).Nodup := by
    decide +kernel
  exact hall category h

theorem noClose_of_mem (h : field ∈ fields) : '\x7d' ∉ field.key.toList := by
  have hall : ∀ field ∈ fields, '\x7d' ∉ field.key.toList := by decide +kernel
  exact hall field h

variable (now : Moment) (user : String)

/-- The fields of a category in a sample context. -/
def sampleCategory (category : String) : Datum :=
  .object ((inCategory category).map fun field => (field.name, sampleValue now (.str user) field))

/-- What a field shows is a text. -/
theorem exists_sampleValue (field : DataField) :
    ∃ text, sampleValue now (.str user) field = .str text := by
  unfold sampleValue
  split
  · split <;> exact ⟨_, rfl⟩
  · exact ⟨_, rfl⟩

/-- The path of a field leads to what the field shows. -/
theorem resolve_key (h : field ∈ fields) :
    Binding.resolve (sampleContext now (.str user)) field.key =
      some (sampleValue now (.str user) field) := by
  obtain ⟨text, htext⟩ := exists_sampleValue now user field
  have hcategory : (sampleContext now (.str user)).member? field.category =
      some (sampleCategory now user field.category) := by
    refine lookup_of_mem ?_ (List.mem_map.mpr ⟨field.category, mem_categories h, rfl⟩)
    rw [List.map_map]
    exact nodup_categories
  have hname : (sampleCategory now user field.category).member? field.name =
      some (sampleValue now (.str user) field) := by
    refine lookup_of_mem ?_ (List.mem_map.mpr ⟨field, ?_, rfl⟩)
    · rw [List.map_map]
      exact nodup_names (mem_categories h)
    · exact List.mem_filter.mpr ⟨h, beq_self_eq_true _⟩
  have hvalue : sampleValue now (.str user) field ≠ .null := by
    rw [htext]
    simp
  rw [Binding.resolve, keysOf_key h, follow_of_member hcategory (by simp [sampleCategory]),
    follow_of_member hname hvalue, follow]

/-- A blank path leads nowhere. -/
theorem resolve_blank : Binding.resolve (sampleContext now (.str user)) "" = none := by
  have hkeys : keysOf "".toList = [""] := by decide
  have hmember : (sampleContext now (.str user)).member? "" = none := rfl
  rw [Binding.resolve, hkeys, follow, hmember]

end Catalogue

namespace Document

open Binding

variable {d : Document Number}

/-- The paths of a document without unknown bindings are those of fields. -/
theorem exists_field_of_mem (h : d.unknownBindings = []) {path : String}
    (hpath : path ∈ d.usedFields) : ∃ field ∈ Catalogue.fields, field.key = path := by
  have hknown : path ∈ Catalogue.fields.map DataField.key := by
    by_contra hunknown
    have hmem := mem_unknownBindings.mpr ⟨hpath, hunknown⟩
    rw [h] at hmem
    cases hmem
  exact List.mem_map.mp hknown

/-- A document that binds to the catalogue only is filled in from a sample context, at any moment
and for any user. No path is left without a value: each is that of a field, and leads to what the
field shows. Every bound text has become the value of its field, the tokens of any other text the
values of their paths, and every bound scan code the letters and digits of its value, and nothing
else has changed. -/
theorem previews (h : d.unknownBindings = []) (now : Moment) (user : String) :
    let context := Catalogue.sampleContext now (.str user)
    d.unresolvedFields context = [] ∧
    (∀ path ∈ d.usedFields, ∃ field ∈ Catalogue.fields, field.key = path ∧
      Binding.resolve context path = some (Catalogue.sampleValue now (.str user) field)) ∧
    (d.resolve context).size = d.size ∧ (d.resolve context).settings = d.settings ∧
    List.Forall₂ (fun e shown => shown.frame = e.frame ∧ IsFilledIn context e.body shown.body)
      d.elements (d.resolve context).elements := by
  intro context
  have hvalues : ∀ path ∈ d.usedFields, ∃ field ∈ Catalogue.fields, field.key = path ∧
      Binding.resolve context path = some (Catalogue.sampleValue now (.str user) field) := by
    intro path hpath
    obtain ⟨field, hfield, rfl⟩ := exists_field_of_mem h hpath
    exact ⟨field, hfield, rfl, Catalogue.resolve_key now user hfield⟩
  refine ⟨List.filter_eq_nil_iff.mpr ?_, hvalues, rfl, rfl, ?_⟩
  · intro path hpath
    obtain ⟨_, _, _, hv⟩ := hvalues path hpath
    simp [hv]
  · rw [Document.resolve, List.forall₂_map_right_iff, List.forall₂_same]
    intro e he
    refine ⟨rfl, isFilledIn_fillBody (Catalogue.resolve_blank now user) fun path hpath => ?_⟩
    obtain ⟨field, hfield, rfl, hv⟩ := hvalues path (mem_usedFields.mpr ⟨e, he, hpath⟩)
    exact ⟨⟨_, hv⟩, Catalogue.noClose_of_mem hfield⟩

/-- Two texts and three codes: bound to a field, with tokens, and with a blank token. -/
def shelfTag : Document Number where
  size := LabelSize.initial
  elements := [
    .plainText "user" "" (some "system.user"),
    .plainText "lot" "\x7bLot \x7b\x7b inventory.lot \x7d\x7d, \x7b\x7bsystem.date\x7d\x7d\x7d"
      none,
    .code128 "slot" "0" (some "location.full"),
    .code128 "sku" " \x7b\x7bproduct.sku \x7d\x7d" none,
    .code128 "blank" "\x7b\x7b \x7d\x7d" none]
  settings := Settings.initial

/-- The name of the user looks like a token, and stays as it is. -/
theorem previews_shelfTag :
    let context := Catalogue.sampleContext ⟨2026, 3, 9, 7, 5⟩ (.str "\x7b\x7bzone\x7d\x7d")
    shelfTag.unknownBindings = [] ∧ shelfTag.unresolvedFields context = [] ∧
    (shelfTag.resolve context).elements = [
      .plainText "user" "\x7b\x7bzone\x7d\x7d" (some "system.user"),
      .plainText "lot" "\x7bLot LOT-2024-001, 2026-03-09\x7d" none,
      .code128 "slot" "WH01A01S0101" (some "location.full"),
      .code128 "sku" "SKU12345" none,
      .code128 "blank" "\x7b\x7b \x7d\x7d" none] ∧
    List.Forall₂ (fun e shown => shown.frame = e.frame ∧ IsFilledIn context e.body shown.body)
      shelfTag.elements (shelfTag.resolve context).elements := by
  intro context
  have hknown : shelfTag.unknownBindings = [] := by decide +kernel
  obtain ⟨hresolved, -, -, -, hfilled⟩ :=
    previews hknown ⟨2026, 3, 9, 7, 5⟩ "\x7b\x7bzone\x7d\x7d"
  exact ⟨hknown, hresolved, by decide +kernel, hfilled⟩

end Document

end LabelLayout
