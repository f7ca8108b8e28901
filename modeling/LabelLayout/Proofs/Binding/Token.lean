import LabelLayout.Binding.Token

/-!
# `LabelLayout.Proofs.Binding.Token`: the one way to cut a text into tokens

`IsCut` says what it is to take the tokens of a text leftmost first and without overlap,
and it mentions no scanner: a token stands wherever the rest of the text starts with one,
and only where it does not is a character taken by itself. `isCut_iff_eq_scan` says that
`scan` finds the cut, and that there is no other.
-/

set_option autoImplicit false

namespace LabelLayout.Binding

/-! ### Tokens at the front -/

/-- A token is found at the front exactly when the text starts with one. -/
theorem tokenAt?_eq_some_iff {cs path after : List Char} :
    tokenAt? cs = some (path, after) ↔
      cs = (Piece.token path).text ++ after ∧ path ≠ [] ∧ '\x7d' ∉ path := by
  constructor
  · intro h
    obtain ⟨hcs, hne, hpath⟩ := tokenAt?_eq_some h
    refine ⟨hcs, hne, fun hmem => ?_⟩
    simpa [isPathChar] using hpath _ hmem
  · rintro ⟨rfl, hne, hclose⟩
    have hpath : ∀ c ∈ path, isPathChar c = true := fun c hc =>
      bne_iff_ne.mpr fun heq => hclose (heq ▸ hc)
    obtain ⟨c, rest, rfl⟩ := List.exists_cons_of_ne_nil hne
    -- The path ends at the first closing brace, and there are two of them.
    have htake : (c :: rest ++ ['\x7d', '\x7d'] ++ after).takeWhile isPathChar = c :: rest := by
      rw [List.append_assoc, List.takeWhile_append_of_pos hpath]
      simp [isPathChar]
    have hdrop : (c :: rest ++ ['\x7d', '\x7d'] ++ after).dropWhile isPathChar
        = '\x7d' :: '\x7d' :: after := by
      rw [List.append_assoc, List.dropWhile_append_of_pos hpath]
      simp [isPathChar]
    show tokenAt? ('\x7b' :: '\x7b' :: (c :: rest ++ ['\x7d', '\x7d'] ++ after)) = _
    rw [tokenAt?, htake, hdrop]
    rfl

/-- The text starts with a token. -/
def StartsToken (cs : List Char) : Prop :=
  ∃ path after, cs = (Piece.token path).text ++ after ∧ path ≠ [] ∧ '\x7d' ∉ path

theorem tokenAt?_eq_none_iff {cs : List Char} : tokenAt? cs = none ↔ ¬ StartsToken cs := by
  constructor
  · rintro h ⟨path, after, hcs⟩
    rw [tokenAt?_eq_some_iff.mpr hcs] at h
    cases h
  · intro h
    cases hfound : tokenAt? cs with
    | none => rfl
    | some found => exact absurd ⟨found.1, found.2, tokenAt?_eq_some_iff.mp hfound⟩ h

/-- A text is a single token exactly when it is one. -/
theorem soleToken?_eq_some_iff {cs path : List Char} :
    soleToken? cs = some path ↔ cs = (Piece.token path).text ∧ path ≠ [] ∧ '\x7d' ∉ path := by
  have hwhole : soleToken? cs = some path ↔ tokenAt? cs = some (path, []) := by
    unfold soleToken?
    split
    · next p h => rw [h, Option.some.injEq, Option.some.injEq, Prod.mk.injEq, and_iff_left rfl]
    · next hnot => exact ⟨fun h => (nomatch h), fun h => (hnot path h).elim⟩
  rw [hwhole, tokenAt?_eq_some_iff, List.append_nil]

/-! ### Cuts -/

/-- The pieces are the tokens of the text, leftmost first and without overlap, and the
characters between them. -/
inductive IsCut : List Char → List Piece → Prop
  | nil : IsCut [] []
  | token {path rest : List Char} {pieces : List Piece} (hne : path ≠ [])
      (hclose : '\x7d' ∉ path) (hrest : IsCut rest pieces) :
      IsCut ((Piece.token path).text ++ rest) (.token path :: pieces)
  | char {c : Char} {rest : List Char} {pieces : List Piece}
      (hstart : ¬ StartsToken (c :: rest)) (hrest : IsCut rest pieces) :
      IsCut (c :: rest) (.char c :: pieces)

/-- What the scanner finds is the cut of the text, and the only one. -/
theorem isCut_iff_eq_scan {cs : List Char} {pieces : List Piece} :
    IsCut cs pieces ↔ pieces = scan cs := by
  constructor
  · intro h
    induction h with
    | nil => rw [scan.eq_def]; rfl
    | @token path rest pieces hne hclose _ ih =>
      have hfound : tokenAt? ((Piece.token path).text ++ rest) = some (path, rest) :=
        tokenAt?_eq_some_iff.mpr ⟨rfl, hne, hclose⟩
      rw [scan.eq_def, ih]
      split
      · next h => rw [hfound] at h; cases h; rfl
      · next h => rw [hfound] at h; cases h
    | @char c rest pieces hstart _ ih =>
      have hnone := tokenAt?_eq_none_iff.mpr hstart
      rw [scan.eq_def, ih]
      split
      · next h => rw [hnone] at h; cases h
      · rfl
  · rintro rfl
    fun_induction scan cs with
    | case1 cs path after h ih =>
      obtain ⟨rfl, hne, hclose⟩ := tokenAt?_eq_some_iff.mp h
      exact .token hne hclose ih
    | case2 => exact .nil
    | case3 c rest h ih => exact .char (tokenAt?_eq_none_iff.mp h) ih

theorem isCut_scan (cs : List Char) : IsCut cs (scan cs) := isCut_iff_eq_scan.mpr rfl

/-- A token by itself is cut into itself. -/
theorem scan_text_token {path : List Char} (hne : path ≠ []) (hclose : '\x7d' ∉ path) :
    scan (Piece.token path).text = [.token path] := by
  have h : IsCut ((Piece.token path).text ++ []) [.token path] := .token hne hclose .nil
  rw [List.append_nil] at h
  exact (isCut_iff_eq_scan.mp h).symm

/-- The path of a token in a cut is not empty and holds no closing brace. -/
theorem IsCut.path {cs : List Char} {pieces : List Piece} (h : IsCut cs pieces)
    {path : List Char} (hmem : .token path ∈ pieces) : path ≠ [] ∧ '\x7d' ∉ path := by
  induction h with
  | nil => cases hmem
  | token hne hclose _ ih =>
    rcases List.mem_cons.mp hmem with heq | hmem
    · cases heq
      exact ⟨hne, hclose⟩
    · exact ih hmem
  | char _ _ ih =>
    rcases List.mem_cons.mp hmem with heq | hmem
    · cases heq
    · exact ih hmem

/-- The paths of a text are those of its tokens. -/
theorem mem_paths {cs path : List Char} : path ∈ paths cs ↔ .token path ∈ scan cs := by
  unfold paths
  rw [List.mem_filterMap]
  constructor
  · rintro ⟨piece, hpiece, hpath⟩
    cases piece with
    | char c => cases hpath
    | token p =>
      cases hpath
      exact hpiece
  · exact fun h => ⟨_, h, rfl⟩

end LabelLayout.Binding
