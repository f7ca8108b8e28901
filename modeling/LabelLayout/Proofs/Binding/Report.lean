import LabelLayout.Binding.Catalogue
import LabelLayout.Proofs.Binding.Fields

/-!
# `LabelLayout.Proofs.Binding.Report`: how a path is reported

A path is written in a token of a text, as the field of an element, or in the token that is the
value of a scan code. A lookup trims it wherever it stands (`Binding.resolve_trim`), so paths
that are the same when trimmed are one. The report of used fields trims what stands in a token,
keeps a field as it is, and leaves out a scan code whose path is blank (`Binding.reported`,
`Document.usedFields_of_isWrittenIn`).

So a used field that is not trimmed is the field of an element
(`Document.mem_boundFields_of_mem_usedFields`). `Document.usedFields_eq_trimmed_iff` draws the
consequences: only such a field makes the report list one path twice or take a path of the
catalogue for an unknown one.
-/

set_option autoImplicit false

namespace LabelLayout

namespace Binding

/-! ### Paths that are written once -/

/-- Where a path is written: in the content of a text, as the field of an element, or in the
value of a scan code. -/
inductive Place where
  | content
  | field
  | value
  deriving DecidableEq, Repr, Inhabited

variable {path : String} {place : Place} {body : Body Number}

/-- A body has a path at a place and refers to no other. -/
inductive IsWrittenIn (path : String) : Place → Body Number → Prop
  | content {t : TextBody Number} (hfree : boundField? t.isVariable t.dataField = none)
      (hcontent : t.content = tokenOf path) : IsWrittenIn path .content (.text t)
  | text {t : TextBody Number} (hbound : boundField? t.isVariable t.dataField = some path)
      (hcontent : paths t.content.toList = []) : IsWrittenIn path .field (.text t)
  | barcode {b : BarcodeBody Number} (hbound : boundField? b.isVariable b.dataField = some path) :
      IsWrittenIn path .field (.barcode b)
  | qrcode {q : QrBody Number} (hbound : boundField? q.isVariable q.dataField = some path) :
      IsWrittenIn path .field (.qrcode q)
  | barcodeValue {b : BarcodeBody Number} (hfree : boundField? b.isVariable b.dataField = none)
      (hvalue : b.value = tokenOf path) : IsWrittenIn path .value (.barcode b)
  | qrcodeValue {q : QrBody Number} (hfree : boundField? q.isVariable q.dataField = none)
      (hvalue : q.value = tokenOf path) : IsWrittenIn path .value (.qrcode q)

/-- What is reported for a path at a place. -/
def reported (path : String) : Place → List String
  | .content => [Text.trimmed path]
  | .field => [path]
  | .value => if Text.trimmed path = "" then [] else [Text.trimmed path]

/-- A token has braces at its ends and no blanks. -/
theorem trim_text_token (path : List Char) :
    Text.trim (Piece.token path).text = (Piece.token path).text := by
  rw [Text.trim_eq_self_iff]
  constructor
  · intro c hc
    cases hc
    decide
  · intro c hc
    have hlast : (Piece.token path).text = '\x7b' :: '\x7b' :: (path ++ ['\x7d']) ++ ['\x7d'] := by
      simp [Piece.text]
    rw [hlast, List.getLast?_concat] at hc
    cases hc
    decide

/-- The token of a path, as the value of a scan code, has the trimmed path. -/
theorem tokenPath?_tokenOf (hne : path ≠ "") (hclose : '\x7d' ∉ path.toList) :
    tokenPath? (tokenOf path) = some (Text.trimmed path) := by
  rw [tokenPath?_eq_some_iff, toList_tokenOf]
  exact ⟨path.toList, trim_text_token _, fun h => hne (String.toList_eq_nil_iff.mp h), hclose, rfl⟩

/-- A scan code that is bound to a field has its path. -/
theorem filter_codePath?_of_field {isVariable : Datum} {dataField : Option String}
    (value : String) (h : boundField? isVariable dataField = some path) :
    (codePath? isVariable dataField value).filter (· ≠ "") = some path := by
  have hne := (boundField?_eq_some_iff.mp h).2.2
  rw [codePath?, h, Option.some_or, Option.filter_some, if_pos (by simpa using hne)]

/-- One that is not has that of its value, unless it is blank. -/
theorem filter_codePath?_of_token {isVariable : Datum} {dataField : Option String}
    (hne : path ≠ "") (hclose : '\x7d' ∉ path.toList)
    (h : boundField? isVariable dataField = none) :
    ((codePath? isVariable dataField (tokenOf path)).filter (· ≠ "")).toList =
      reported path .value := by
  rw [codePath?, h, Option.none_or, tokenPath?_tokenOf hne hclose, reported, Option.filter_some]
  by_cases hblank : Text.trimmed path = "" <;> simp [hblank]

/-- The paths of a body with one path are what is reported for it. -/
theorem bodyPaths_of_isWrittenIn (hne : path ≠ "") (hclose : '\x7d' ∉ path.toList)
    (h : IsWrittenIn path place body) : bodyPaths body = reported path place := by
  cases h with
  | @content t hfree hcontent =>
    have hpaths : paths (tokenOf path).toList = [path.toList] := by
      rw [paths, scan_tokenOf hne hclose]
      rfl
    rw [bodyPaths, hfree, hcontent, hpaths]
    rfl
  | @text t hbound hcontent =>
    rw [bodyPaths, hbound, hcontent]
    rfl
  | @barcode b hbound =>
    rw [bodyPaths, filter_codePath?_of_field b.value hbound]
    rfl
  | @qrcode q hbound =>
    rw [bodyPaths, filter_codePath?_of_field q.value hbound]
    rfl
  | @barcodeValue b hfree hvalue =>
    rw [bodyPaths, hvalue, filter_codePath?_of_token hne hclose hfree]
  | @qrcodeValue q hfree hvalue =>
    rw [bodyPaths, hvalue, filter_codePath?_of_token hne hclose hfree]

/-- The trimmed path is reported, unless it is a field that is not trimmed or the blank path of
a scan code. -/
theorem reported_eq_trimmed_iff : reported path place = [Text.trimmed path] ↔
    (place = .field → Text.trimmed path = path) ∧ (place = .value → Text.trimmed path ≠ "") := by
  cases place with
  | content => simp [reported]
  | field =>
    rw [reported, List.singleton_inj, eq_comm]
    simp
  | value => by_cases hblank : Text.trimmed path = "" <;> simp [reported, hblank]

/-! ### Fields as they stand -/

/-- The field that a body is bound to. -/
def bodyField? : Body Number → Option String
  | .text t => boundField? t.isVariable t.dataField
  | .barcode b => boundField? b.isVariable b.dataField
  | .qrcode q => boundField? q.isVariable q.dataField
  | _ => none

theorem trimmed_trim (cs : List Char) :
    Text.trimmed (String.ofList (Text.trim cs)) = String.ofList (Text.trim cs) := by
  rw [Text.trimmed, String.toList_ofList, Text.trim_trim]

/-- The path of a scan code is its field, or it is trimmed. -/
theorem trimmed_codePath? {isVariable : Datum} {dataField : Option String} {value : String}
    (h : codePath? isVariable dataField value = some path) :
    boundField? isVariable dataField = some path ∨ Text.trimmed path = path := by
  cases codePath?_eq_some_iff.mp h with
  | field hvariable hfield hne => exact .inl (boundField?_eq_some_iff.mpr ⟨hfield, hvariable, hne⟩)
  | token _ _ _ _ => exact .inr (trimmed_trim _)

/-- A path of a body is its field, or it is trimmed. -/
theorem trimmed_of_mem_bodyPaths (h : path ∈ bodyPaths body) :
    bodyField? body = some path ∨ Text.trimmed path = path := by
  cases body with
  | text t =>
    rcases List.mem_append.mp h with h | h
    · obtain ⟨p, -, rfl⟩ := List.mem_map.mp h
      exact .inr (trimmed_trim p)
    · exact .inl (Option.mem_toList.mp h)
  | barcode b => exact trimmed_codePath? (Option.filter_eq_some_iff.mp (Option.mem_toList.mp h)).1
  | qrcode q => exact trimmed_codePath? (Option.filter_eq_some_iff.mp (Option.mem_toList.mp h)).1
  | _ => cases h

/-- The field of a body is one of its paths. -/
theorem mem_bodyPaths_of_bodyField? (h : bodyField? body = some path) : path ∈ bodyPaths body := by
  cases body with
  | text t => exact List.mem_append_right _ (Option.mem_toList.mpr h)
  | barcode b => exact Option.mem_toList.mpr (filter_codePath?_of_field b.value h)
  | qrcode q => exact Option.mem_toList.mpr (filter_codePath?_of_field q.value h)
  | _ => cases h

end Binding

namespace Document

open Binding

variable {d : Document Number} {path : String}

/-- The fields that the elements of a document are bound to, as they stand. -/
def boundFields (d : Document Number) : List String :=
  d.elements.filterMap fun e => bodyField? e.body

theorem mem_usedFields_of_mem_boundFields (h : path ∈ d.boundFields) : path ∈ d.usedFields := by
  obtain ⟨e, he, hfield⟩ := List.mem_filterMap.mp h
  exact mem_usedFields.mpr ⟨e, he, mem_bodyPaths_of_bodyField? hfield⟩

/-- A used field that is not trimmed is the field of an element. -/
theorem mem_boundFields_of_mem_usedFields (h : path ∈ d.usedFields)
    (hspaced : Text.trimmed path ≠ path) : path ∈ d.boundFields := by
  obtain ⟨e, he, hpath⟩ := mem_usedFields.mp h
  exact List.mem_filterMap.mpr ⟨e, he, (trimmed_of_mem_bodyPaths hpath).resolve_right hspaced⟩

/-- The used fields of a document with one element that has one path. -/
theorem usedFields_of_isWrittenIn {e : Element Number} {place : Place} (hd : d.elements = [e])
    (hne : path ≠ "") (hclose : '\x7d' ∉ path.toList) (h : IsWrittenIn path place e.body) :
    d.usedFields = reported path place := by
  rw [usedFields, hd, List.flatMap_singleton, bodyPaths_of_isWrittenIn hne hclose h]
  cases place with
  | content => rfl
  | field => rfl
  | value =>
    rw [reported]
    split <;> rfl

/-- A path is reported twice exactly when it is the field of an element with blanks around it,
and is written in another way besides. -/
theorem exists_respelled_iff :
    (∃ p ∈ d.usedFields, ∃ q ∈ d.usedFields, p ≠ q ∧ Text.trimmed p = Text.trimmed q) ↔
      ∃ p ∈ d.boundFields, Text.trimmed p ≠ p ∧
        ∃ q ∈ d.usedFields, p ≠ q ∧ Text.trimmed p = Text.trimmed q := by
  constructor
  · rintro ⟨p, hp, q, hq, hne, htrim⟩
    by_cases hspaced : Text.trimmed p = p
    · -- Then the other one is not trimmed, since it is not the same.
      have hother : Text.trimmed q ≠ q := fun h => hne (hspaced.symm.trans (htrim.trans h))
      exact ⟨q, mem_boundFields_of_mem_usedFields hq hother, hother, p, hp, hne.symm, htrim.symm⟩
    · exact ⟨p, mem_boundFields_of_mem_usedFields hp hspaced, hspaced, q, hq, hne, htrim⟩
  · rintro ⟨p, hp, -, q, hq, hne, htrim⟩
    exact ⟨p, mem_usedFields_of_mem_boundFields hp, q, hq, hne, htrim⟩

/-- The paths of the catalogue are trimmed. -/
theorem trimmed_of_mem_catalogue (h : path ∈ Catalogue.fields.map DataField.key) :
    Text.trimmed path = path := by
  have hkeys : ∀ key ∈ Catalogue.fields.map DataField.key, Text.trimmed key = key := by
    decide +kernel
  exact hkeys path h

theorem mem_unknownBindings : path ∈ d.unknownBindings ↔
    path ∈ d.usedFields ∧ path ∉ Catalogue.fields.map DataField.key := by
  rw [unknownBindings, List.mem_filter, Bool.not_eq_true', ← Bool.not_eq_true,
    List.contains_iff_mem]

/-- A path of the catalogue is reported as unknown exactly when it is the field of an element
with blanks around it. -/
theorem exists_unknown_iff :
    (∃ p ∈ d.unknownBindings, Text.trimmed p ∈ Catalogue.fields.map DataField.key) ↔
      ∃ p ∈ d.boundFields, Text.trimmed p ≠ p ∧
        Text.trimmed p ∈ Catalogue.fields.map DataField.key := by
  constructor
  · rintro ⟨p, hp, hknown⟩
    obtain ⟨hused, hunknown⟩ := mem_unknownBindings.mp hp
    have hspaced : Text.trimmed p ≠ p := fun h => hunknown (h ▸ hknown)
    exact ⟨p, mem_boundFields_of_mem_usedFields hused hspaced, hspaced, hknown⟩
  · rintro ⟨p, hp, hspaced, hknown⟩
    have hunknown : p ∉ Catalogue.fields.map DataField.key :=
      fun h => hspaced (trimmed_of_mem_catalogue h)
    have hused := mem_usedFields_of_mem_boundFields hp
    exact ⟨p, mem_unknownBindings.mpr ⟨hused, hunknown⟩, hknown⟩

/-- One path, one report, where fields are trimmed. A document whose one element has one path
reports what `reported` says for its place, and this is the trimmed path unless the path is a
field with blanks around it, or the blank path of a scan code. A document lists one path twice in
different spellings, or takes a path of the catalogue for an unknown one, exactly when there is a
field with blanks around it that makes it so. -/
theorem usedFields_eq_trimmed_iff (d : Document Number) :
    (∀ e path place, d.elements = [e] → path ≠ "" → '\x7d' ∉ path.toList →
      IsWrittenIn path place e.body →
        d.usedFields = reported path place ∧
        (d.usedFields = [Text.trimmed path] ↔
          (place = .field → Text.trimmed path = path) ∧
            (place = .value → Text.trimmed path ≠ ""))) ∧
    ((∃ p ∈ d.usedFields, ∃ q ∈ d.usedFields, p ≠ q ∧ Text.trimmed p = Text.trimmed q) ↔
      ∃ p ∈ d.boundFields, Text.trimmed p ≠ p ∧
        ∃ q ∈ d.usedFields, p ≠ q ∧ Text.trimmed p = Text.trimmed q) ∧
    ((∃ p ∈ d.unknownBindings, Text.trimmed p ∈ Catalogue.fields.map DataField.key) ↔
      ∃ p ∈ d.boundFields, Text.trimmed p ≠ p ∧
        Text.trimmed p ∈ Catalogue.fields.map DataField.key) := by
  refine ⟨?_, exists_respelled_iff, exists_unknown_iff⟩
  intro e path place hd hne hclose h
  have hused := usedFields_of_isWrittenIn hd hne hclose h
  refine ⟨hused, ?_⟩
  rw [hused]
  exact reported_eq_trimmed_iff

/-- A code that is bound to a field of the catalogue with blanks around it. -/
def spacedCode : Element Number := .code128 "code" "0" (some " product.sku ")

/-- The field of the code is reported as it stands, and so beside the same path in a token, and as
unknown. A code with a blank token is not reported at all. -/
theorem usedFields_ne_trimmed_spacedCode :
    let alone (e : Element Number) : Document Number :=
      ⟨LabelSize.initial, [e], Settings.initial⟩
    let both : Document Number := ⟨LabelSize.initial,
      [.plainText "text" "\x7b\x7bproduct.sku\x7d\x7d" none, spacedCode], Settings.initial⟩
    (alone spacedCode).usedFields = [" product.sku "] ∧
    (alone spacedCode).usedFields ≠ [Text.trimmed " product.sku "] ∧
    (alone (.code128 "blank" "\x7b\x7b \x7d\x7d" none)).usedFields = [] ∧
    both.usedFields = [" product.sku ", "product.sku"] ∧
    ∃ p ∈ both.unknownBindings, Text.trimmed p ∈ Catalogue.fields.map DataField.key := by
  intro alone both
  have hspaced : Text.trimmed " product.sku " = "product.sku" := by decide +kernel
  have hbound : IsWrittenIn " product.sku " .field spacedCode.body := .barcode rfl
  have hblank : IsWrittenIn " " .value (Element.code128 "blank" "\x7b\x7b \x7d\x7d" none).body :=
    .barcodeValue rfl rfl
  obtain ⟨hcode, hiff⟩ := (usedFields_eq_trimmed_iff (alone spacedCode)).1 spacedCode
    " product.sku " .field rfl (by decide) (by decide) hbound
  obtain ⟨hnone, -⟩ := (usedFields_eq_trimmed_iff (alone _)).1 _ " " .value rfl
    (by decide) (by decide) hblank
  refine ⟨hcode, fun h => ?_, hnone, by decide +kernel,
    (usedFields_eq_trimmed_iff both).2.2.mpr ?_⟩
  · have htrimmed := (hiff.mp h).1 rfl
    rw [hspaced] at htrimmed
    exact absurd htrimmed (by decide)
  · have hmem : " product.sku " ∈ both.boundFields := List.mem_singleton.mpr rfl
    have hknown : "product.sku" ∈ Catalogue.fields.map DataField.key := by decide +kernel
    refine ⟨" product.sku ", hmem, ?_, ?_⟩
    · rw [hspaced]
      decide
    · rw [hspaced]
      exact hknown

end Document

end LabelLayout
