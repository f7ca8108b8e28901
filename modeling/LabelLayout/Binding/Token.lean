/-!
# `LabelLayout.Binding.Token`: tokens in a text

A token is two opening braces, a path of at least one character and without a
closing brace, and two closing braces. `scan` cuts a text into tokens, leftmost
first and without overlap, and the characters between them. Nothing is lost:
`flatMap_text_scan` says that the pieces make up the text.
-/

set_option autoImplicit false

namespace LabelLayout.Binding

/-- A character of a text, or a token with the path between its braces. -/
inductive Piece where
  | char (c : Char)
  | token (path : List Char)
  deriving DecidableEq, Repr, Inhabited

/-- The characters of a piece. -/
def Piece.text : Piece → List Char
  | .char c => [c]
  | .token path => '\x7b' :: '\x7b' :: (path ++ ['\x7d', '\x7d'])

/-- The path of a piece that is a token. -/
def Piece.path? : Piece → Option (List Char)
  | .char _ => none
  | .token path => some path

/-- Whether a character may stand in a path. -/
def isPathChar (c : Char) : Bool := c != '\x7d'

/-- The path of a token at the front of a text, and what follows the token. -/
def tokenAt? : List Char → Option (List Char × List Char)
  | '\x7b' :: '\x7b' :: rest =>
    match rest.takeWhile isPathChar, rest.dropWhile isPathChar with
    | [], _ => none
    | path, '\x7d' :: '\x7d' :: after => some (path, after)
    | _, _ => none
  | _ => none

/-- A token is found where the text starts with one: its path is not empty and
holds no closing brace. -/
theorem tokenAt?_eq_some {cs path after : List Char}
    (h : tokenAt? cs = some (path, after)) :
    cs = (Piece.token path).text ++ after ∧ path ≠ [] ∧ ∀ c ∈ path, isPathChar c = true := by
  unfold tokenAt? at h
  split at h
  · next rest =>
    split at h
    · simp at h
    · next heq hne =>
      simp only [Option.some.injEq, Prod.mk.injEq] at h
      obtain ⟨rfl, rfl⟩ := h
      refine ⟨?_, hne, fun c hc => List.all_eq_true.mp List.all_takeWhile c hc⟩
      have hcut := List.takeWhile_append_dropWhile (p := isPathChar) (l := rest)
      rw [heq] at hcut
      rw [← hcut]
      simp [Piece.text, hcut]
    · simp at h
  · simp at h

/-- What follows a token is shorter than the text. -/
theorem length_lt_of_tokenAt? {cs path after : List Char}
    (h : tokenAt? cs = some (path, after)) : after.length < cs.length := by
  rw [(tokenAt?_eq_some h).1]
  simp only [Piece.text, List.cons_append, List.append_assoc, List.length_cons,
    List.length_append, List.nil_append]
  omega

/-- The pieces of a text. -/
def scan (cs : List Char) : List Piece :=
  match _h : tokenAt? cs with
  | some (path, after) => .token path :: scan after
  | none =>
    match cs with
    | [] => []
    | c :: rest => .char c :: scan rest
termination_by cs.length
decreasing_by
  · exact length_lt_of_tokenAt? (by assumption)
  · simp

/-- The pieces of a text make up the text. -/
theorem flatMap_text_scan (cs : List Char) : (scan cs).flatMap Piece.text = cs := by
  fun_induction scan cs with
  | case1 cs path after h ih =>
    rw [List.flatMap_cons, ih]
    exact (tokenAt?_eq_some h).1.symm
  | case2 => rfl
  | case3 c rest h ih => simp [Piece.text, ih]

/-- The paths of the tokens in a text. -/
def paths (cs : List Char) : List (List Char) := (scan cs).filterMap Piece.path?

/-- The path of a text that is a single token. -/
def soleToken? (cs : List Char) : Option (List Char) :=
  match tokenAt? cs with
  | some (path, []) => some path
  | _ => none

end LabelLayout.Binding
