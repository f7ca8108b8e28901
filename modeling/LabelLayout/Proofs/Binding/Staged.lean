import LabelLayout.Binding.Resolve
import LabelLayout.Proofs.Binding.Token
import Mathlib.Data.List.Basic

/-!
# `LabelLayout.Proofs.Binding.Staged`: filling a text in twice

A value that is put in the place of a token may stand between braces that had no token
before. It makes none with them, as long as it is not empty and holds no brace itself:
`IsCut.fill` says that the filled text is cut where the text was, each value being cut into
its characters. So filling in from a second context reaches exactly the tokens that the
first one left (`fill_fill`).

Without that condition the scan of the filled text may find more. In `{{x}{{a}}}` an empty
value of `a` leaves the token `{{x}}` behind.
-/

set_option autoImplicit false

namespace LabelLayout.Binding

/-! ### Where tokens start -/

/-- The first closing brace of the text is followed by another. -/
def ClosesToken (cs : List Char) : Prop :=
  ∃ path after, cs = path ++ '\x7d' :: '\x7d' :: after ∧ '\x7d' ∉ path

theorem closesToken_cons_iff {c : Char} {cs : List Char} :
    ClosesToken (c :: cs) ↔
      (c = '\x7d' ∧ cs.head? = some '\x7d') ∨ (c ≠ '\x7d' ∧ ClosesToken cs) := by
  constructor
  · rintro ⟨path, after, hcs, hclose⟩
    cases path with
    | nil =>
      cases hcs
      exact .inl ⟨rfl, rfl⟩
    | cons d path =>
      cases hcs
      rw [List.mem_cons, not_or] at hclose
      exact .inr ⟨Ne.symm hclose.1, path, after, rfl, hclose.2⟩
  · rintro (⟨rfl, hhead⟩ | ⟨hne, path, after, rfl, hclose⟩)
    · obtain ⟨after, rfl⟩ := List.head?_eq_some_iff.mp hhead
      exact ⟨[], after, rfl, List.not_mem_nil⟩
    · refine ⟨c :: path, after, rfl, ?_⟩
      rw [List.mem_cons, not_or]
      exact ⟨Ne.symm hne, hclose⟩

/-- A token starts with two opening braces, no closing brace, and is closed. -/
theorem startsToken_cons_iff {c : Char} {cs : List Char} :
    StartsToken (c :: cs) ↔
      c = '\x7b' ∧ ∃ rest, cs = '\x7b' :: rest ∧ rest.head? ≠ some '\x7d' ∧ ClosesToken rest := by
  constructor
  · rintro ⟨path, after, hcs, hne, hclose⟩
    obtain ⟨d, path, rfl⟩ := List.exists_cons_of_ne_nil hne
    simp only [Piece.text, List.cons_append, List.cons.injEq] at hcs
    obtain ⟨rfl, rfl⟩ := hcs
    refine ⟨rfl, _, rfl, ?_, d :: path, after, by simp, hclose⟩
    rw [List.mem_cons, not_or] at hclose
    simpa using Ne.symm hclose.1
  · rintro ⟨rfl, rest, rfl, hhead, path, after, rfl, hclose⟩
    refine ⟨path, after, by simp [Piece.text], ?_, hclose⟩
    rintro rfl
    exact hhead rfl

/-! ### Filled texts -/

/-- A value that can stand next to any brace without making a token with it. -/
def IsInert (text : String) : Prop :=
  text ≠ "" ∧ '\x7b' ∉ text.toList ∧ '\x7d' ∉ text.toList

/-- The pieces of what a piece is filled in with. -/
def filledPieces (context : Datum) (piece : Piece) : List Piece :=
  match piece with
  | .char c => [.char c]
  | .token path =>
    match resolve context (String.ofList path) with
    | some v => (printed v).toList.map .char
    | none => [.token path]

variable {context : Datum} {cs : List Char} {pieces : List Piece}

/-- Every token that the context resolves has a value that makes no token with its
neighbours. -/
def FillsInert (context : Datum) (pieces : List Piece) : Prop :=
  ∀ path, .token path ∈ pieces → ∀ v, resolve context (String.ofList path) = some v →
    IsInert (printed v)

theorem FillsInert.tail {piece : Piece} (h : FillsInert context (piece :: pieces)) :
    FillsInert context pieces :=
  fun path hpath => h path (List.mem_cons_of_mem _ hpath)

/-- A closing brace is in front of a filled text exactly when it was before. -/
theorem IsCut.head?_fill_iff (hcut : IsCut cs pieces) (h : FillsInert context pieces) :
    (pieces.flatMap (fillPiece context)).head? = some '\x7d' ↔ cs.head? = some '\x7d' := by
  cases hcut with
  | nil => rfl
  | char _ _ => rfl
  | @token path rest pieces hne hclose hrest =>
    -- The token starts with an opening brace, and so does no value.
    have hbefore : ((Piece.token path).text ++ rest).head? ≠ some '\x7d' := by simp [Piece.text]
    refine iff_of_false (fun hhead => ?_) hbefore
    rw [List.flatMap_cons, fillPiece] at hhead
    cases hresolve : resolve context (String.ofList path) with
    | none => simp [hresolve, Piece.text] at hhead
    | some v =>
      obtain ⟨hv, -, hno⟩ := h path List.mem_cons_self v hresolve
      obtain ⟨c, value, hvalue⟩ : ∃ c value, (printed v).toList = c :: value :=
        List.exists_cons_of_ne_nil fun hnil => hv (String.toList_eq_nil_iff.mp hnil)
      simp only [hresolve, hvalue, List.cons_append, List.head?_cons, Option.some.injEq] at hhead
      rw [hvalue, hhead] at hno
      exact hno List.mem_cons_self

/-- A filled text closes a token only if the text did before. -/
theorem IsCut.closesToken_of_fill (hcut : IsCut cs pieces) (h : FillsInert context pieces)
    (hcloses : ClosesToken (pieces.flatMap (fillPiece context))) : ClosesToken cs := by
  induction hcut with
  | nil => exact hcloses
  | @token path rest pieces hne hclose hrest _ =>
    refine ⟨'\x7b' :: '\x7b' :: path, rest, by simp [Piece.text], ?_⟩
    simpa using hclose
  | @char c rest pieces _ hrest ih =>
    rw [List.flatMap_cons, fillPiece, List.singleton_append, closesToken_cons_iff] at hcloses
    rw [closesToken_cons_iff]
    rcases hcloses with ⟨hc, hhead⟩ | ⟨hc, hcloses⟩
    · exact .inl ⟨hc, (hrest.head?_fill_iff h.tail).mp hhead⟩
    · exact .inr ⟨hc, ih h.tail hcloses⟩

/-- A character of the text starts a token of the filled text only if it did before. -/
theorem IsCut.startsToken_of_fill (hcut : IsCut cs pieces) (h : FillsInert context pieces)
    {c : Char} (hstarts : StartsToken (c :: pieces.flatMap (fillPiece context))) :
    StartsToken (c :: cs) := by
  obtain ⟨rfl, filled, hfilled, hhead, hcloses⟩ := startsToken_cons_iff.mp hstarts
  cases hcut with
  | nil => cases hfilled
  | @token path rest pieces hne hclose hrest =>
    -- An opening brace in front of a token belongs to its path.
    refine ⟨'\x7b' :: path, rest, by simp [Piece.text], List.cons_ne_nil _ _, ?_⟩
    simpa using hclose
  | @char d rest pieces _ hrest =>
    rw [List.flatMap_cons, fillPiece, List.singleton_append, List.cons.injEq] at hfilled
    obtain ⟨rfl, rfl⟩ := hfilled
    rw [startsToken_cons_iff]
    exact ⟨rfl, rest, rfl, fun hbefore => hhead ((hrest.head?_fill_iff h.tail).mpr hbefore),
      hrest.closesToken_of_fill h.tail hcloses⟩

/-- Characters without an opening brace are cut into themselves. -/
theorem IsCut.append_left (hcut : IsCut cs pieces) {value : List Char} (h : '\x7b' ∉ value) :
    IsCut (value ++ cs) (value.map .char ++ pieces) := by
  induction value with
  | nil => exact hcut
  | cons c value ih =>
    rw [List.mem_cons, not_or] at h
    refine .char (fun hstarts => ?_) (ih h.2)
    exact h.1 (startsToken_cons_iff.mp hstarts).1.symm

/-- A filled text is cut where the text was. -/
theorem IsCut.fill (hcut : IsCut cs pieces) (h : FillsInert context pieces) :
    IsCut (pieces.flatMap (fillPiece context)) (pieces.flatMap (filledPieces context)) := by
  induction hcut with
  | nil => exact .nil
  | @token path rest pieces hne hclose _ ih =>
    rw [List.flatMap_cons, List.flatMap_cons, fillPiece, filledPieces]
    cases hresolve : resolve context (String.ofList path) with
    | none => exact .token hne hclose (ih h.tail)
    | some v => exact (ih h.tail).append_left (h path List.mem_cons_self v hresolve).2.1
  | @char c rest pieces hstart hrest ih =>
    refine .char (fun hstarts => ?_) (ih h.tail)
    exact hstart (hrest.startsToken_of_fill h.tail hstarts)

/-! ### Two contexts -/

/-- A piece of a text, a token being replaced by the value of its path in the first context
that has one. -/
def stagedPiece (first second : Datum) (piece : Piece) : List Char :=
  match piece with
  | .char c => [c]
  | .token path =>
    match (resolve first (String.ofList path)).or (resolve second (String.ofList path)) with
    | some v => (printed v).toList
    | none => piece.text

/-- What one context leaves of a piece, the other fills in. -/
theorem flatMap_filledPieces (first second : Datum) (piece : Piece) :
    (filledPieces first piece).flatMap (fillPiece second) = stagedPiece first second piece := by
  cases piece with
  | char c => rfl
  | token path =>
    cases hfirst : resolve first (String.ofList path) with
    | none =>
      simp only [filledPieces, stagedPiece, hfirst, Option.none_or, List.flatMap_singleton]
      rfl
    | some v =>
      simp only [filledPieces, stagedPiece, hfirst, Option.some_or, List.flatMap_map, fillPiece,
        List.flatMap_singleton']

/-- Filled in once more from the same context, a piece is what it was. -/
theorem stagedPiece_self (context : Datum) : stagedPiece context context = fillPiece context := by
  funext piece
  cases piece with
  | char c => rfl
  | token path =>
    simp only [stagedPiece, Option.or_self]
    rfl

/-- A text is cut into tokens and characters in one way only. Suppose that each token that
the first context resolves has a value which is not empty and holds no brace. Then a second
filling replaces just the tokens that the first one left, and filling in twice from the
first context is filling in once. A context that resolves no token changes nothing. -/
theorem fill_fill {first second : Datum} {text : String}
    (h : ∀ path ∈ paths text.toList, ∀ v, resolve first (String.ofList path) = some v →
      printed v ≠ "" ∧ '\x7b' ∉ (printed v).toList ∧ '\x7d' ∉ (printed v).toList) :
    (∀ pieces, IsCut text.toList pieces ↔ pieces = scan text.toList) ∧
      fill second (fill first text)
        = String.ofList ((scan text.toList).flatMap (stagedPiece first second)) ∧
      fill first (fill first text) = fill first text ∧
      ∀ context, (∀ path ∈ paths text.toList, resolve context (String.ofList path) = none) →
        fill context text = text := by
  have hinert : FillsInert first (scan text.toList) := fun path hpath =>
    h path (mem_paths.mpr hpath)
  have hscan := isCut_iff_eq_scan.mp ((isCut_scan text.toList).fill hinert)
  have hstaged (context : Datum) : fill context (fill first text)
      = String.ofList ((scan text.toList).flatMap (stagedPiece first context)) := by
    show String.ofList ((scan (String.ofList _).toList).flatMap _) = _
    rw [String.toList_ofList, ← hscan, List.flatMap_assoc]
    simp only [flatMap_filledPieces]
  refine ⟨fun pieces => isCut_iff_eq_scan, hstaged second, ?_, fun context hnone => ?_⟩
  · rw [hstaged first, stagedPiece_self]
    rfl
  · have hkept : ∀ piece ∈ scan text.toList, fillPiece context piece = piece.text := by
      intro piece hpiece
      cases piece with
      | char c => rfl
      | token path => simp only [fillPiece, hnone path (mem_paths.mpr hpiece)]
    unfold fill
    rw [List.flatMap_congr hkept, flatMap_text_scan, String.ofList_toList]

/-- Two stages. The unbalanced braces of the text have no token before and after, and the
second context has the path that the first has not. -/
theorem fill_fill_sample :
    let first : Datum := .object [("a", .str "v")]
    let second : Datum := .object [("b", .object [("c", .num (.int 5))])]
    let text := "\x7b\x7bx\x7d\x7b\x7ba\x7d\x7d\x7d \x7b\x7b b.c \x7d\x7d\x7b\x7bd\x7d\x7d"
    fill first text = "\x7b\x7bx\x7dv\x7d \x7b\x7b b.c \x7d\x7d\x7b\x7bd\x7d\x7d" ∧
      fill second (fill first text) = "\x7b\x7bx\x7dv\x7d 5\x7b\x7bd\x7d\x7d" := by
  intro first second text
  have hprinted : ∀ path ∈ paths text.toList,
      ((resolve first (String.ofList path)).map printed).all (· = "v") = true := by
    decide +kernel
  have hinert : ∀ path ∈ paths text.toList, ∀ v, resolve first (String.ofList path) = some v →
      printed v ≠ "" ∧ '\x7b' ∉ (printed v).toList ∧ '\x7d' ∉ (printed v).toList := by
    intro path hpath v hv
    have hv' := hprinted path hpath
    rw [hv, Option.map_some, Option.all_some, decide_eq_true_eq] at hv'
    rw [hv']
    decide
  refine ⟨by decide +kernel, ?_⟩
  rw [(fill_fill hinert).2.1]
  decide +kernel

end LabelLayout.Binding
