import LabelLayout.Proofs.Binding.Token
import LabelLayout.Proofs.Design.RoundTrip
import LabelLayout.Proofs.Text.Trim
import LabelLayout.Binding.Resolve
import Mathlib.Data.List.Lex

/-!
# `LabelLayout.Proofs.Binding.Fields`: the fields that a document refers to

`Binding.bodyPaths` collects the paths of a body and `Binding.fillBody` looks paths up. They
go through bindings and tokens separately and trim at different places; `Body.fillBody_congr`
says that nothing is looked up that is not collected. So contexts that agree on the used
fields of a document fill it in alike (`Document.resolve_eq_of_usedFields`), as long as its
bindings can be written as tokens (`Body.HasPaths`).

The used fields stand in the order of their code points, each once. That needs texts that
are made of code points, for others may have the same ones.
-/

set_option autoImplicit false

namespace LabelLayout

namespace Binding

/-! ### Paths -/

/-- Blanks at the ends of a path do not count. -/
theorem resolve_trim (context : Datum) (path : List Char) :
    resolve context (String.ofList (Text.trim path)) = resolve context (String.ofList path) := by
  simp only [resolve, keysOf, String.toList_ofList, Text.trim_trim]

theorem boundField?_eq_some_iff {isVariable : Datum} {dataField : Option String}
    {field : String} : boundField? isVariable dataField = some field ↔
      dataField = some field ∧ isVariable.truthy = true ∧ field ≠ "" := by
  unfold boundField?
  cases dataField with
  | none => simp
  | some f =>
    simp only [Option.some.injEq, Option.ite_none_right_eq_some, Bool.and_eq_true,
      Bool.not_eq_true', String.isEmpty_eq_false_iff]
    constructor
    · rintro ⟨⟨hvariable, hne⟩, rfl⟩
      exact ⟨rfl, hvariable, hne⟩
    · rintro ⟨rfl, hvariable, hne⟩
      exact ⟨⟨hvariable, hne⟩, rfl⟩

/-- The path of a value that is a single token, blanks at its ends apart. -/
theorem tokenPath?_eq_some_iff {value path : String} :
    tokenPath? value = some path ↔ ∃ p, Text.trim value.toList = (Piece.token p).text ∧
      p ≠ [] ∧ '\x7d' ∉ p ∧ String.ofList (Text.trim p) = path := by
  simp only [tokenPath?, Option.map_eq_some_iff, soleToken?_eq_some_iff, and_assoc]

/-- A scan code is bound to a path: to the field that it is switched to, or else to the path of
a value that is a single token, blanks around the token and the path apart. -/
inductive IsBoundTo (isVariable : Datum) (dataField : Option String) (value : String) :
    String → Prop
  | field {field : String} (hvariable : isVariable.truthy = true)
      (hfield : dataField = some field) (hne : field ≠ "") :
      IsBoundTo isVariable dataField value field
  | token {path : List Char}
      (hfree : ∀ field, isVariable.truthy = true → dataField = some field → field = "")
      (hvalue : Text.trim value.toList = (Piece.token path).text) (hne : path ≠ [])
      (hclose : '\x7d' ∉ path) :
      IsBoundTo isVariable dataField value (String.ofList (Text.trim path))

theorem boundField?_eq_none_iff {isVariable : Datum} {dataField : Option String} :
    boundField? isVariable dataField = none ↔
      ∀ field, isVariable.truthy = true → dataField = some field → field = "" := by
  rw [Option.eq_none_iff_forall_ne_some]
  simp only [ne_eq, boundField?_eq_some_iff, not_and, not_not]
  constructor
  · intro h field hvariable hfield
    exact h field hfield hvariable
  · intro h field hfield hvariable
    exact h field hvariable hfield

theorem codePath?_eq_some_iff {isVariable : Datum} {dataField : Option String}
    {value path : String} :
    codePath? isVariable dataField value = some path ↔
      IsBoundTo isVariable dataField value path := by
  unfold codePath?
  rw [Option.or_eq_some_iff, boundField?_eq_some_iff, boundField?_eq_none_iff,
    tokenPath?_eq_some_iff]
  constructor
  · rintro (⟨hfield, hvariable, hne⟩ | ⟨hfree, p, hvalue, hne, hclose, rfl⟩)
    · exact .field hvariable hfield hne
    · exact .token hfree hvalue hne hclose
  · rintro (⟨hvariable, hfield, hne⟩ | ⟨hfree, hvalue, hne, hclose⟩)
    · exact .inl ⟨hfield, hvariable, hne⟩
    · exact .inr ⟨hfree, _, hvalue, hne, hclose, rfl⟩

theorem toList_tokenOf (field : String) :
    (tokenOf field).toList = (Piece.token field.toList).text := String.toList_ofList

/-- A text shows its filled content, or the filled token of its field. -/
theorem fillBody_text (context : Datum) (t : TextBody Number) :
    fillBody context (.text t) = .text { t with
      content :=
        fill context ((boundField? t.isVariable t.dataField).elim t.content tokenOf) } := by
  simp only [fillBody]
  cases boundField? t.isVariable t.dataField with
  | none => rfl
  | some field => rfl

/-- The token of a field has that path, if the field is not empty and holds no closing
brace. -/
theorem scan_tokenOf {field : String} (hne : field ≠ "") (hclose : '\x7d' ∉ field.toList) :
    scan (tokenOf field).toList = [.token field.toList] := by
  rw [toList_tokenOf]
  exact scan_text_token (fun h => hne (String.toList_eq_nil_iff.mp h)) hclose

end Binding

/-- The bindings of a body can be written as tokens: no field of a text holds a closing
brace, and no value of a scan code is a token by itself whose path is blank. -/
def Body.HasPaths : Body Number → Prop
  | .text t => ∀ field, t.dataField = some field → '\x7d' ∉ field.toList
  | .barcode b => ∀ path, path ≠ [] →
    Text.trim b.value.toList = (Binding.Piece.token path).text → Text.trim path ≠ []
  | .qrcode q => ∀ path, path ≠ [] →
    Text.trim q.value.toList = (Binding.Piece.token path).text → Text.trim path ≠ []
  | _ => True

namespace Binding

/-! ### Contexts that agree -/

section

variable {first second : Datum}

/-- Contexts that agree on the paths of a text fill it in alike. -/
theorem fill_congr {text : String} (h : ∀ path ∈ paths text.toList,
      resolve first (String.ofList path) = resolve second (String.ofList path)) :
    fill first text = fill second text := by
  have hpiece : ∀ piece ∈ scan text.toList, fillPiece first piece = fillPiece second piece := by
    intro piece hpiece
    cases piece with
    | char c => rfl
    | token path => simp only [fillPiece, h path (mem_paths.mpr hpiece)]
  unfold fill
  rw [List.flatMap_congr hpiece]

/-- The path of a scan code is collected when its body has paths. -/
theorem codePath?_ne_some_empty {isVariable : Datum} {dataField : Option String}
    {value : String} (h : ∀ path, path ≠ [] →
      Text.trim value.toList = (Piece.token path).text → Text.trim path ≠ []) :
    codePath? isVariable dataField value ≠ some "" := by
  intro hpath
  generalize hempty : "" = path at hpath
  cases codePath?_eq_some_iff.mp hpath with
  | field _ _ hne => exact hne hempty.symm
  | token _ hvalue hne _ => exact h _ hne hvalue (String.ofList_eq_empty_iff.mp hempty.symm)

/-- Contexts that agree on the path of a scan code fill it in alike. -/
theorem fillCode_congr {path : Option String} (hne : path ≠ some "") (value : String)
    (h : ∀ p ∈ (path.filter (· ≠ "")).toList, resolve first p = resolve second p) :
    fillCode first path value = fillCode second path value := by
  unfold fillCode
  cases path with
  | none => rfl
  | some p =>
    have hp : p ≠ "" := fun heq => hne (congrArg some heq)
    rw [Option.bind_some, Option.bind_some, h p (by simp [hp])]

/-- Contexts that agree on the paths of a body fill it in alike. -/
theorem fillBody_congr {body : Body Number} (hpaths : body.HasPaths)
    (h : ∀ p ∈ bodyPaths body, resolve first p = resolve second p) :
    fillBody first body = fillBody second body := by
  cases body with
  | text t =>
    simp only [bodyPaths, List.mem_append, List.mem_map, Option.mem_toList] at h
    have hfill : fill first ((boundField? t.isVariable t.dataField).elim t.content tokenOf)
        = fill second ((boundField? t.isVariable t.dataField).elim t.content tokenOf) := by
      refine fill_congr fun path hpath => ?_
      cases hbound : boundField? t.isVariable t.dataField with
      -- The tokens of the content are collected by their trimmed paths.
      | none =>
        rw [hbound] at hpath
        rw [← resolve_trim first, ← resolve_trim second]
        exact h _ (.inl ⟨path, hpath, rfl⟩)
      -- The one token of a bound field has the field for its path.
      | some field =>
        obtain ⟨hfield, -, hne⟩ := boundField?_eq_some_iff.mp hbound
        rw [hbound, Option.elim_some, mem_paths, scan_tokenOf hne (hpaths field hfield),
          List.mem_singleton, Piece.token.injEq] at hpath
        rw [hpath, String.ofList_toList]
        exact h field (.inr hbound)
    rw [fillBody_text, fillBody_text, hfill]
  | barcode b =>
    have hcode := fillCode_congr (codePath?_ne_some_empty hpaths) b.value h
    simp only [fillBody, hcode]
  | qrcode q =>
    have hcode := fillCode_congr (codePath?_ne_some_empty hpaths) q.value h
    simp only [fillBody, hcode]
  | _ => rfl

end

/-! ### The order of names -/

theorem mem_insertName {name other : String} {names : List String} :
    other ∈ insertName name names ↔ other = name ∨ other ∈ names := by
  induction names with
  | nil => simp [insertName]
  | cons first names ih =>
    unfold insertName
    split
    · next h => rw [List.mem_cons, h, or_self_left]
    · split
      · rw [List.mem_cons]
      · rw [List.mem_cons, ih, List.mem_cons, or_left_comm]

theorem mem_foldr_insertName {name : String} {names : List String} :
    name ∈ names.foldr insertName [] ↔ name ∈ names := by
  induction names with
  | nil => rfl
  | cons first names ih => rw [List.foldr_cons, mem_insertName, ih, List.mem_cons]

/-- Of two names that are texts of code points and not the same, one comes first. -/
theorem codePoints_lt_or_gt {name other : String} (hname : Text.IsSpelled name.toList)
    (hother : Text.IsSpelled other.toList) (hne : name ≠ other) :
    Text.codePoints name.toList < Text.codePoints other.toList ∨
      Text.codePoints other.toList < Text.codePoints name.toList := by
  refine lt_or_gt_of_ne fun heq => hne ?_
  exact String.toList_inj.mp (hname.eq_of_codePoints_eq hother heq)

/-- The names are in rising order, each once. -/
def IsRising (names : List String) : Prop :=
  names.Pairwise fun p q => Text.codePoints p.toList < Text.codePoints q.toList

/-- A name is put where it belongs. -/
theorem isRising_insertName {name : String} {names : List String}
    (hname : Text.IsSpelled name.toList) (hnames : ∀ p ∈ names, Text.IsSpelled p.toList)
    (h : IsRising names) : IsRising (insertName name names) := by
  unfold IsRising at h ⊢
  induction names with
  | nil => simp [insertName]
  | cons first names ih =>
    rw [List.forall_mem_cons] at hnames
    obtain ⟨hfirst, hrest⟩ := List.pairwise_cons.mp h
    unfold insertName
    split
    · exact h
    · next hne =>
      split
      · next hbefore =>
        have hlt : Text.codePoints name.toList < Text.codePoints first.toList := by
          simpa [precedes] using hbefore
        refine List.pairwise_cons.mpr ⟨fun p hp => ?_, h⟩
        rcases List.mem_cons.mp hp with rfl | hp
        · exact hlt
        · exact hlt.trans (hfirst p hp)
      · next hbefore =>
        have hlt : Text.codePoints first.toList < Text.codePoints name.toList :=
          (codePoints_lt_or_gt hname hnames.1 hne).resolve_left (by simpa [precedes] using hbefore)
        refine List.pairwise_cons.mpr ⟨fun p hp => ?_, ih hnames.2 hrest⟩
        rcases mem_insertName.mp hp with rfl | hp
        · exact hlt
        · exact hfirst p hp

theorem isRising_foldr_insertName {names : List String}
    (h : ∀ p ∈ names, Text.IsSpelled p.toList) : IsRising (names.foldr insertName []) := by
  induction names with
  | nil => exact List.Pairwise.nil
  | cons name names ih =>
    rw [List.forall_mem_cons] at h
    rw [List.foldr_cons]
    exact isRising_insertName h.1 (fun p hp => h.2 p (mem_foldr_insertName.mp hp)) (ih h.2)

/-! ### Paths are made of code points -/

/-- The path of a token in a text of code points is one. -/
theorem isSpelled_path {before path after : List Char}
    (h : Text.IsSpelled (before ++ (Piece.token path).text ++ after)) : Text.IsSpelled path := by
  -- The text is cut at an opening brace of the token, and what follows at a closing one.
  have hcut : before ++ (Piece.token path).text ++ after
      = (before ++ ['\x7b']) ++ '\x7b' :: (path ++ '\x7d' :: ('\x7d' :: after)) := by
    simp [Piece.text]
  rw [hcut] at h
  exact (Text.IsSpelled.split (by decide) (Text.IsSpelled.split (by decide) h).2).1

theorem isSpelled_of_mem_paths {cs path : List Char} (h : Text.IsSpelled cs)
    (hpath : path ∈ paths cs) : Text.IsSpelled path := by
  obtain ⟨before, after, hscan⟩ := List.append_of_mem (mem_paths.mp hpath)
  rw [← flatMap_text_scan cs, hscan, List.flatMap_append, List.flatMap_cons,
    ← List.append_assoc] at h
  exact isSpelled_path h

theorem isSpelled_codePath {isVariable : Datum} {dataField : Option String}
    {value path : String} (hfield : ∀ field, dataField = some field → Text.IsSpelled field.toList)
    (hvalue : Text.IsSpelled value.toList) (h : codePath? isVariable dataField value = some path) :
    Text.IsSpelled path.toList := by
  cases codePath?_eq_some_iff.mp h with
  | field _ hbound _ => exact hfield path hbound
  | @token p _ hp _ _ =>
    have htrim : Text.IsSpelled ([] ++ (Piece.token p).text ++ []) := by
      rw [List.nil_append, List.append_nil, ← hp]
      exact hvalue.trim
    rw [String.toList_ofList]
    exact (isSpelled_path htrim).trim

/-- The paths of an element whose texts are made of code points are made of them. -/
theorem isSpelled_of_mem_bodyPaths {e : Element Number}
    (h : ∀ a ∈ e.kind.attributes, ∀ text, e.get a = .str text → Text.IsSpelled text.toList)
    {path : String} (hpath : path ∈ bodyPaths e.body) : Text.IsSpelled path.toList := by
  obtain ⟨frame, body⟩ := e
  cases body with
  | text t =>
    have hfield : ∀ field, t.dataField = some field → Text.IsSpelled field.toList :=
      fun field hfield => h .dataField (show _ ∈ Kind.attributes .text by decide) field
        (congrArg optionalText hfield)
    have hcontent := h .content (show _ ∈ Kind.attributes .text by decide) t.content rfl
    rcases List.mem_append.mp hpath with hpath | hpath
    · obtain ⟨p, hp, rfl⟩ := List.mem_map.mp hpath
      rw [String.toList_ofList]
      exact (isSpelled_of_mem_paths hcontent hp).trim
    · exact hfield path (boundField?_eq_some_iff.mp (Option.mem_toList.mp hpath)).1
  | barcode b =>
    have hfield : ∀ field, b.dataField = some field → Text.IsSpelled field.toList :=
      fun field hfield => h .dataField (show _ ∈ Kind.attributes .barcode by decide) field
        (congrArg optionalText hfield)
    have hvalue := h .value (show _ ∈ Kind.attributes .barcode by decide) b.value rfl
    have hcode := (Option.filter_eq_some_iff.mp (Option.mem_toList.mp hpath)).1
    exact isSpelled_codePath hfield hvalue hcode
  | qrcode q =>
    have hfield : ∀ field, q.dataField = some field → Text.IsSpelled field.toList :=
      fun field hfield => h .dataField (show _ ∈ Kind.attributes .qrcode by decide) field
        (congrArg optionalText hfield)
    have hvalue := h .value (show _ ∈ Kind.attributes .qrcode by decide) q.value rfl
    have hcode := (Option.filter_eq_some_iff.mp (Option.mem_toList.mp hpath)).1
    exact isSpelled_codePath hfield hvalue hcode
  | _ => cases hpath

end Binding

/-- A text of default extent and looks, bound if it has a field. -/
def Element.plainText (id content : String) (dataField : Option String) : Element Number where
  frame := ⟨id, .int 5, .int 5, .int 50, .int 25, .int 0, .bool false, .bool true⟩
  body := .text {
    content, fontSize := .int 14, fontFamily := "Arial", fontWeight := .normal
    color := "#000000", align := .left, lineHeight := .null, letterSpacing := .null
    isVariable := .bool dataField.isSome, dataField }

/-- A bar code of default extent and looks, bound if it has a field. -/
def Element.code128 (id value : String) (dataField : Option String) : Element Number where
  frame := ⟨id, .int 5, .int 35, .int 70, .int 40, .int 0, .bool false, .bool true⟩
  body := .barcode {
    value, symbology := .code128, showText := .bool true, textPosition := .bottom
    isVariable := .bool dataField.isSome, dataField }

namespace Document

open Binding

variable {d : Document Number}

/-- The used fields are the paths of the elements. -/
theorem mem_usedFields {path : String} :
    path ∈ d.usedFields ↔ ∃ e ∈ d.elements, path ∈ bodyPaths e.body := by
  unfold usedFields
  rw [mem_foldr_insertName, List.mem_flatMap]

/-- If the bindings of a document can be written as tokens, contexts that have the same
value or none for each of its used fields fill it in alike. The used fields of a document
with texts of code points rise strictly in the order of their code points. -/
theorem resolve_eq_of_usedFields (d : Document Number) :
    ((∀ e ∈ d.elements, e.body.HasPaths) → ∀ first second : Datum,
      (∀ path ∈ d.usedFields, Binding.resolve first path = Binding.resolve second path) →
        d.resolve first = d.resolve second) ∧
    (d.IsSpelled → d.usedFields.Pairwise fun path next =>
      Text.codePoints path.toList < Text.codePoints next.toList) := by
  constructor
  · intro hpaths first second hagree
    have helements : ∀ e ∈ d.elements, e.resolve first = e.resolve second := by
      intro e he
      have hbody := fillBody_congr (hpaths e he) fun path hpath =>
        hagree path (mem_usedFields.mpr ⟨e, he, hpath⟩)
      unfold Element.resolve
      rw [hbody]
    unfold Document.resolve
    rw [List.map_congr_left helements]
  · intro hspelled
    refine isRising_foldr_insertName fun path hpath => ?_
    obtain ⟨e, he, hpath⟩ := List.mem_flatMap.mp hpath
    exact isSpelled_of_mem_bodyPaths (hspelled.elements e he) hpath

/-- A text that is bound, a text with tokens and a code whose value is a token. -/
def priceTag : Document Number where
  size := LabelSize.initial
  elements := [
    .plainText "price" "" (some "product.price"),
    .plainText "name" "\x7b\x7b product.name \x7d\x7d at \x7b\x7bbin\x7d\x7d" none,
    .code128 "code" " \x7b\x7b bin \x7d\x7d " none]
  settings := Settings.initial

/-- Two contexts that differ in what the tag does not refer to fill it in alike, though its
name has no value in either. -/
theorem resolve_eq_of_usedFields_priceTag :
    let first : Datum := .object [("bin", .str "B-7"), ("product", .object [
      ("price", .num (.int 5)), ("weight", .num (.int 2))])]
    let second : Datum := .object [("bin", .str "B-7"), ("product", .object [
      ("price", .num (.int 5)), ("name", .null)])]
    priceTag.usedFields = ["bin", "product.name", "product.price"] ∧
      priceTag.resolve first = priceTag.resolve second ∧
      priceTag.usedFields.Pairwise fun path next =>
        Text.codePoints path.toList < Text.codePoints next.toList := by
  intro first second
  have hused : priceTag.usedFields = ["bin", "product.name", "product.price"] := by
    decide +kernel
  have hpaths : ∀ e ∈ priceTag.elements, e.body.HasPaths := by
    simp only [priceTag, List.forall_mem_cons]
    refine ⟨fun field h => ?_, fun field h => ?_, fun path _ h => ?_, List.forall_mem_nil _⟩
    · cases h
      decide
    · cases h
    · have hpath : " bin ".toList = path :=
        List.append_cancel_right (congrArg (List.drop 2) h)
      rw [← hpath]
      decide
  have hspelled : priceTag.IsSpelled :=
    isSpelled_of_notMem (by decide) (by decide +kernel)
  refine ⟨hused, (resolve_eq_of_usedFields priceTag).1 hpaths first second ?_,
    (resolve_eq_of_usedFields priceTag).2 hspelled⟩
  rw [hused]
  decide +kernel

end Document

end LabelLayout
