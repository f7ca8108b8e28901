import LabelLayout.Proofs.Binding.Fields

/-!
# `LabelLayout.Proofs.Binding.Bound`: texts that are bound to a field

A bound text is filled in by way of a token: the token of its field is made and scanned. Bar
codes, QR codes and the report of fields without a value look the field up as it stands
(`Document.looksUp`). The two ways agree in every context exactly when the field holds no
closing brace (`Document.showsField_iff`). With one, the scanner finds a shorter token or
none, and `onlyAt` is a context that tells them apart: it has an empty text at the field and
nothing else.
-/

set_option autoImplicit false

namespace LabelLayout

namespace Binding

/-! ### Ways down -/

theorem splitDots_eq_splitOn (path : List Char) : splitDots path = path.splitOn '.' := by
  induction path with
  | nil => rfl
  | cons c rest ih =>
    have hne : rest.splitOn '.' ≠ [] := List.splitOn_ne_nil '.' rest
    obtain ⟨piece, pieces, hpieces⟩ := List.exists_cons_of_ne_nil hne
    rw [List.splitOn_cons_eq_if_modifyHead, splitDots, ih, hpieces]
    simp only [beq_iff_eq, List.modifyHead_cons]

/-- Paths with the same keys are the same, blanks at their ends apart. -/
theorem trim_eq_of_keysOf_eq {path other : List Char} (h : keysOf path = keysOf other) :
    Text.trim path = Text.trim other := by
  have hpieces : splitDots (Text.trim path) = splitDots (Text.trim other) :=
    List.map_injective_iff.mpr (fun _ _ => String.ofList_inj.mp) h
  rw [splitDots_eq_splitOn, splitDots_eq_splitOn] at hpieces
  have hjoined := congrArg (List.intercalate ['.']) hpieces
  rwa [List.intercalate_splitOn, List.intercalate_splitOn] at hjoined

/-- The context with an empty text at the end of a way down and nothing beside it. -/
def onlyAt : List String → Datum
  | [] => .str ""
  | key :: keys => .object [(key, onlyAt keys)]

theorem follow_onlyAt_cons (key first : String) (keys way : List String) :
    follow (onlyAt (key :: keys)) (first :: way)
      = if first = key then follow (onlyAt keys) way else none := by
  by_cases hkey : first = key
  · have hmember : (onlyAt (key :: keys)).member? first = some (onlyAt keys) := by
      simp [onlyAt, Value.member?, hkey]
    rw [follow, hmember, if_pos hkey]
    cases keys with
    | nil => rfl
    | cons next keys => rfl
  · have hmember : (onlyAt (key :: keys)).member? first = none := by
      simp [onlyAt, Value.member?, List.lookup_cons, beq_eq_false_iff_ne.mpr hkey]
    rw [follow, hmember, if_neg hkey]

theorem follow_onlyAt (keys : List String) : follow (onlyAt keys) keys = some (.str "") := by
  induction keys with
  | nil => rfl
  | cons key keys ih => rw [follow_onlyAt_cons, if_pos rfl, ih]

theorem printed_object_ne (members : List (String × Datum)) : printed (.object members) ≠ "" := by
  intro h
  show False
  have hopen : Value.literalChars (.object members) = [] := String.ofList_eq_empty_iff.mp h
  rw [Value.literalChars] at hopen
  cases hopen

/-- No other way down ends at a value that is printed empty. -/
theorem eq_of_follow_onlyAt {keys way : List String} {v : Datum}
    (h : follow (onlyAt keys) way = some v) (hv : printed v = "") : way = keys := by
  induction keys generalizing way with
  | nil =>
    cases way with
    | nil => rfl
    | cons first way => cases h
  | cons key keys ih =>
    cases way with
    | nil =>
      cases h
      exact absurd hv (printed_object_ne _)
    | cons first way =>
      rw [follow_onlyAt_cons, Option.ite_none_right_eq_some] at h
      rw [h.1, ih h.2]

/-! ### Tokens of fields -/

/-- What a context has for a field, as a label shows it, or else the token of the field. -/
def fieldText (context : Datum) (field : String) : String :=
  match resolve context field with
  | some v => printed v
  | none => tokenOf field

/-- The token of a field without a closing brace is filled in with what the field has. -/
theorem fill_tokenOf {field : String} (context : Datum) (hne : field ≠ "")
    (hclose : '\x7d' ∉ field.toList) : fill context (tokenOf field) = fieldText context field := by
  unfold fill fieldText
  rw [scan_tokenOf hne hclose, List.flatMap_singleton, fillPiece, String.ofList_toList]
  cases resolve context field with
  | none => rfl
  | some v => exact String.ofList_toList

/-- A text that is filled in to the empty text is empty or has a token whose value is printed
empty. -/
theorem exists_of_fill_eq_empty {context : Datum} {text : String} (hne : text ≠ "")
    (h : fill context text = "") : ∃ path, '\x7d' ∉ path ∧
      ∃ v, resolve context (String.ofList path) = some v ∧ printed v = "" := by
  have hpieces := List.flatMap_eq_nil_iff.mp (String.ofList_eq_empty_iff.mp h)
  have hscan : scan text.toList ≠ [] := by
    intro hnil
    have htext := flatMap_text_scan text.toList
    rw [hnil, List.flatMap_nil] at htext
    exact hne (String.toList_eq_nil_iff.mp htext.symm)
  obtain ⟨piece, hpiece⟩ := List.exists_mem_of_ne_nil _ hscan
  have hempty := hpieces piece hpiece
  cases piece with
  | char c => cases hempty
  | token path =>
    refine ⟨path, ((isCut_scan text.toList).path hpiece).2, ?_⟩
    simp only [fillPiece] at hempty
    cases hvalue : resolve context (String.ofList path) with
    | none =>
      rw [hvalue] at hempty
      cases hempty
    | some v =>
      rw [hvalue] at hempty
      exact ⟨v, rfl, String.toList_eq_nil_iff.mp hempty⟩

/-- The token of a field with a closing brace is not filled in with what the field has. -/
theorem fill_tokenOf_ne {field : String} (hclose : '\x7d' ∈ field.toList) :
    fill (onlyAt (keysOf field.toList)) (tokenOf field)
      ≠ fieldText (onlyAt (keysOf field.toList)) field := by
  have hfield : fieldText (onlyAt (keysOf field.toList)) field = "" := by
    unfold fieldText resolve
    rw [follow_onlyAt]
    rfl
  rw [hfield]
  intro hfill
  have htoken : tokenOf field ≠ "" := fun h => by cases String.ofList_eq_empty_iff.mp h
  obtain ⟨path, hpath, v, hv, hprinted⟩ := exists_of_fill_eq_empty htoken hfill
  unfold resolve at hv
  rw [String.toList_ofList] at hv
  -- The field and a path in its token would be the same but for blanks, and a brace is none.
  have htrim := trim_eq_of_keysOf_eq (eq_of_follow_onlyAt hv hprinted)
  have hmem := Text.mem_trim_of_mem (by decide) hclose
  rw [← htrim] at hmem
  exact hpath (Text.mem_of_mem_trim hmem)

/-- A scan code that is bound to a field takes the scannable part of what the field has. -/
theorem fillCode_codePath? {isVariable : Datum} {dataField : Option String} {field : String}
    (context : Datum) (value : String) (h : boundField? isVariable dataField = some field) :
    fillCode context (codePath? isVariable dataField value) value
      = ((resolve context field).map scannable).getD value := by
  unfold fillCode codePath?
  rw [h, Option.some_or, Option.bind_some]
  cases resolve context field with
  | none => rfl
  | some v => rfl

end Binding

namespace Document

open Binding

variable {d : Document Number} {e : Element Number} {t : TextBody Number} {field : String}

/-- What is bound to a field goes by what a context has for it: a scan code is filled in with
the scannable part, or keeps its value when there is none, and just then the field is
reported. -/
structure LooksUp (d : Document Number) (context : Datum) (field : String) : Prop where
  barcode : ∀ b, boundField? b.isVariable b.dataField = some field →
    fillBody context (.barcode b)
      = .barcode { b with value := ((Binding.resolve context field).map scannable).getD b.value }
  qrcode : ∀ q, boundField? q.isVariable q.dataField = some field →
    fillBody context (.qrcode q)
      = .qrcode { q with value := ((Binding.resolve context field).map scannable).getD q.value }
  report : field ∈ d.unresolvedFields context ↔ Binding.resolve context field = none

theorem looksUp (context : Datum) (h : field ∈ d.usedFields) : d.LooksUp context field where
  barcode b hbound := by simp only [fillBody, fillCode_codePath? context b.value hbound]
  qrcode q hbound := by simp only [fillBody, fillCode_codePath? context q.value hbound]
  report := by
    unfold unresolvedFields
    rw [List.mem_filter, Option.isNone_iff_eq_none, and_iff_right h]

/-- A text that is bound to a field shows the value of the field, or the token of the field
where there is none, in every context, exactly when the field holds no closing brace. Codes
that are bound to the field and the report go by its value whatever it holds. -/
theorem showsField_iff (he : e ∈ d.elements) (hbody : e.body = .text t)
    (hvariable : t.isVariable.truthy = true) (hfield : t.dataField = some field)
    (hne : field ≠ "") :
    ((∀ context, e.resolve context
        = { e with body := .text { t with content := fieldText context field } }) ↔
      '\x7d' ∉ field.toList) ∧
    ∀ context, d.LooksUp context field := by
  have hbound := boundField?_eq_some_iff.mpr ⟨hfield, hvariable, hne⟩
  have hresolve (context : Datum) : e.resolve context
      = { e with body := .text { t with content := fill context (tokenOf field) } } := by
    unfold Element.resolve
    rw [hbody, fillBody_text, hbound, Option.elim_some]
  refine ⟨⟨fun hshows hclose => ?_, fun hclose context => ?_⟩, fun context => looksUp context ?_⟩
  · have hcontext := hshows (onlyAt (keysOf field.toList))
    rw [hresolve] at hcontext
    have hcontent : fill (onlyAt (keysOf field.toList)) (tokenOf field)
        = fieldText (onlyAt (keysOf field.toList)) field := by
      injection hcontext with _ hbodies
      injection hbodies with hbodies
      injection hbodies
    exact fill_tokenOf_ne hclose hcontent
  · rw [hresolve, fill_tokenOf context hne hclose]
  · refine mem_usedFields.mpr ⟨e, he, ?_⟩
    rw [hbody]
    exact List.mem_append_right _ (Option.mem_toList.mpr hbound)

/-- A text and a code that are bound to one field, with a closing brace in its name. -/
def braced : Document Number where
  size := LabelSize.initial
  elements := [.plainText "text" "" (some "a\x7db"), .code128 "code" "0" (some "a\x7db")]
  settings := Settings.initial

/-- The context has a value for the field. The code takes it and nothing is reported, but the
text shows a token. -/
theorem not_showsField_braced :
    let text := Element.plainText "text" "" (some "a\x7db")
    let context : Datum := .object [("a\x7db", .num (.int 5))]
    (¬ ∀ context, text.resolve context = .plainText "text" (fieldText context "a\x7db")
      (some "a\x7db")) ∧
    braced.unresolvedFields context = [] ∧
    (braced.resolve context).elements = [
      .plainText "text" "\x7b\x7ba\x7db\x7d\x7d" (some "a\x7db"),
      .code128 "code" "5" (some "a\x7db")] := by
  intro text context
  have htext : text ∈ braced.elements := List.mem_cons_self
  have hiff := (showsField_iff htext rfl rfl rfl (by decide)).1
  exact ⟨fun h => hiff.mp h (by decide), by decide +kernel, by decide +kernel⟩

end Document

end LabelLayout
