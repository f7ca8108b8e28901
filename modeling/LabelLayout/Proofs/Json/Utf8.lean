import LabelLayout.Json.Encoding

/-!
# `LabelLayout.Proofs.Json.Utf8`: texts survive their UTF-8 bytes

`decode_encodeUtf8` says that the bytes of a text are decoded to the text, for any
sequence of code points that starts as a JSON text does. Halves of surrogate pairs
are encoded in three bytes like their neighbours. `utf8Bytes_toNat` ties the encoder
to the one that strings of this language have.
-/

set_option autoImplicit false

namespace LabelLayout

/-- A text that spells code points. -/
def Text.IsSpelled (cs : List Char) : Prop :=
  ∃ codes : List Nat, (∀ code ∈ codes, code < 0x110000) ∧ cs = codes.flatMap Text.spell

namespace Json

/-- The bytes of a code point in UTF-8. -/
def utf8Bytes (code : Nat) : List Nat :=
  if code < 0x80 then [code]
  else if code < 0x800 then [0xc0 + code / 0x40, 0x80 + code % 0x40]
  else if code < 0x10000 then
    [0xe0 + code / 0x1000, 0x80 + code / 0x40 % 0x40, 0x80 + code % 0x40]
  else
    [0xf0 + code / 0x40000, 0x80 + code / 0x1000 % 0x40, 0x80 + code / 0x40 % 0x40,
      0x80 + code % 0x40]

/-- The bytes of a text in UTF-8. -/
def encodeUtf8 (cs : List Char) : List Nat := (Text.codePoints cs).flatMap utf8Bytes

/-- A character has the bytes that strings have for it. -/
theorem utf8Bytes_toNat (c : Char) :
    utf8Bytes c.toNat = (String.utf8EncodeChar c).map UInt8.toNat := by
  have hlt : c.val.toNat < 0x110000 := by
    rcases c.valid with h | h
    · exact Nat.lt_trans h (by decide)
    · exact h.2
  have hval : c.toNat = c.val.toNat := rfl
  rw [utf8Bytes, String.utf8EncodeChar, hval]
  generalize c.val.toNat = v at hlt
  by_cases h₁ : v < 0x80
  · rw [if_pos h₁, if_pos (by omega)]
    simp only [List.map_cons, List.map_nil, UInt8.toNat_ofNat']
    rw [Nat.mod_eq_of_lt (by omega)]
  by_cases h₂ : v < 0x800
  · rw [if_neg h₁, if_pos h₂, if_neg (by omega), if_pos (by omega)]
    simp only [List.map_cons, List.map_nil, UInt8.toNat_ofNat', List.cons.injEq, and_true]
    omega
  by_cases h₃ : v < 0x10000
  · rw [if_neg h₁, if_neg h₂, if_pos h₃, if_neg (by omega), if_neg (by omega), if_pos (by omega)]
    simp only [List.map_cons, List.map_nil, UInt8.toNat_ofNat', List.cons.injEq, and_true]
    omega
  · rw [if_neg h₁, if_neg h₂, if_neg h₃, if_neg (by omega), if_neg (by omega), if_neg (by omega)]
    simp only [List.map_cons, List.map_nil, UInt8.toNat_ofNat', List.cons.injEq, and_true]
    omega

theorem isContinuation_add (n : Nat) : isContinuation (0x80 + n % 0x40) = true := by
  simp only [isContinuation, Bool.and_eq_true, decide_eq_true_eq]
  omega

/-- The bytes of a code point at the front are decoded to it. -/
theorem decodeUtf8_utf8Bytes {code : Nat} (h : code < 0x110000) (rest : List Nat) :
    decodeUtf8 (utf8Bytes code ++ rest) = (decodeUtf8 rest).map (Text.spell code ++ ·) := by
  -- By the count of bytes; the decoder tells the counts apart by the first byte, and
  -- refuses a code that would have had fewer.
  rw [utf8Bytes]
  by_cases h₁ : code < 0x80
  · rw [if_pos h₁, List.singleton_append, decodeUtf8.eq_def]
    simp only [h₁, if_true]
  by_cases h₂ : code < 0x800
  · have hcode : (0xc0 + code / 0x40 - 0xc0) * 0x40 + (0x80 + code % 0x40 - 0x80) = code := by
      omega
    have hfirst : (0xc2 ≤ 0xc0 + code / 0x40 && 0xc0 + code / 0x40 < 0xe0) = true := by
      simp only [Bool.and_eq_true, decide_eq_true_eq]
      omega
    rw [if_neg h₁, if_pos h₂, List.cons_append, List.singleton_append,
      decodeUtf8.eq_def]
    simp only [show ¬ 0xc0 + code / 0x40 < 0x80 by omega, isContinuation_add, Bool.not_true,
      Bool.false_eq_true, if_false, hfirst, if_true, hcode]
  by_cases h₃ : code < 0x10000
  · have hcode : ((0xe0 + code / 0x1000 - 0xe0) * 0x40 + (0x80 + code / 0x40 % 0x40 - 0x80)) * 0x40
        + (0x80 + code % 0x40 - 0x80) = code := by
      omega
    have hnot : (0xc2 ≤ 0xe0 + code / 0x1000 && 0xe0 + code / 0x1000 < 0xe0) = false := by
      simp only [Bool.and_eq_false_iff, decide_eq_false_iff_not]
      omega
    have hfirst : (0xe0 ≤ 0xe0 + code / 0x1000 && 0xe0 + code / 0x1000 < 0xf0) = true := by
      simp only [Bool.and_eq_true, decide_eq_true_eq]
      omega
    rw [if_neg h₁, if_neg h₂, if_pos h₃, List.cons_append, List.cons_append,
      List.singleton_append, decodeUtf8.eq_def]
    simp only [show ¬ 0xe0 + code / 0x1000 < 0x80 by omega, if_false, isContinuation_add,
      Bool.not_true, Bool.false_eq_true, hnot, hfirst, if_true, hcode, h₂]
  · have hcode : (((0xf0 + code / 0x40000 - 0xf0) * 0x40 + (0x80 + code / 0x1000 % 0x40 - 0x80))
        * 0x40 + (0x80 + code / 0x40 % 0x40 - 0x80)) * 0x40 + (0x80 + code % 0x40 - 0x80)
        = code := by
      omega
    have htwo : (0xc2 ≤ 0xf0 + code / 0x40000 && 0xf0 + code / 0x40000 < 0xe0) = false := by
      simp only [Bool.and_eq_false_iff, decide_eq_false_iff_not]
      omega
    have hthree : (0xe0 ≤ 0xf0 + code / 0x40000 && 0xf0 + code / 0x40000 < 0xf0) = false := by
      simp only [Bool.and_eq_false_iff, decide_eq_false_iff_not]
      omega
    have hfour : (0xf0 ≤ 0xf0 + code / 0x40000 && 0x10000 ≤ code && code < 0x110000) = true := by
      simp only [Bool.and_eq_true, decide_eq_true_eq]
      omega
    rw [if_neg h₁, if_neg h₂, if_neg h₃, List.cons_append, List.cons_append, List.cons_append,
      List.singleton_append, decodeUtf8.eq_def]
    simp only [show ¬ 0xf0 + code / 0x40000 < 0x80 by omega, if_false, isContinuation_add,
      Bool.not_true, Bool.false_eq_true, htwo, hthree, hcode, Bool.true_and, hfour, if_true]

/-- The bytes of code points are decoded to their text. -/
theorem decodeUtf8_flatMap {codes : List Nat} (h : ∀ code ∈ codes, code < 0x110000) :
    decodeUtf8 (codes.flatMap utf8Bytes) = some (codes.flatMap Text.spell) := by
  induction codes with
  | nil => rfl
  | cons code codes ih =>
    rw [List.flatMap_cons, decodeUtf8_utf8Bytes (h code List.mem_cons_self),
      ih fun c hc => h c (List.mem_cons_of_mem _ hc)]
    rfl

/-- Bytes that start as a JSON text does are taken for UTF-8. -/
theorem detect_of_ascii {a b : Nat} (ha : 0 < a ∧ a < 0x80) (hb : 0 < b)
    (rest : List Nat) : Encoding.detect (a :: b :: rest) = (.utf8, a :: b :: rest) := by
  rw [Encoding.detect.eq_def]
  split
  -- The encodings without a mark are told apart by where the zeros are, and there are none.
  case h_6 heq =>
    simp only [List.cons.injEq] at heq
    obtain ⟨rfl, rfl, rfl⟩ := heq
    simp only [show a ≠ 0 by omega, show b ≠ 0 by omega, if_false]
  case h_7 heq =>
    simp only [List.cons.injEq] at heq
    obtain ⟨rfl, rfl, rfl⟩ := heq
    simp only [show a ≠ 0 by omega, show b ≠ 0 by omega, if_false]
  case h_8 => rfl
  -- A mark starts with a byte that no ASCII character has.
  all_goals
    next heq =>
      have hfirst := (List.cons.inj heq).1
      omega

theorem codePoints_cons_ascii {c : Char} (h : c.toNat < 0x80) (cs : List Char) :
    Text.codePoints (c :: cs) = c.toNat :: Text.codePoints cs :=
  Text.codePoints_cons (Text.ne_mark (by omega)) cs

/-- The bytes of a text that starts with two ASCII characters are decoded to it. -/
theorem decode_encodeUtf8 {a b : Char} {cs : List Char} (h : Text.IsSpelled (a :: b :: cs))
    (ha : 0 < a.toNat ∧ a.toNat < 0x80) (hb : 0 < b.toNat ∧ b.toNat < 0x80) :
    decode (encodeUtf8 (a :: b :: cs)) = some (a :: b :: cs) := by
  obtain ⟨codes, hcodes, hspell⟩ := h
  have hbytes : encodeUtf8 (a :: b :: cs)
      = a.toNat :: b.toNat :: (Text.codePoints cs).flatMap utf8Bytes := by
    rw [encodeUtf8, codePoints_cons_ascii ha.2, codePoints_cons_ascii hb.2, List.flatMap_cons,
      List.flatMap_cons, utf8Bytes, if_pos ha.2, utf8Bytes, if_pos hb.2]
    rfl
  -- The detection looks at the first bytes, the decoder at the code points.
  have hdecode : decodeUtf8 (encodeUtf8 (a :: b :: cs)) = some (a :: b :: cs) := by
    rw [hspell, encodeUtf8, Text.codePoints_flatMap_spell hcodes, decodeUtf8_flatMap hcodes]
  rw [hbytes] at hdecode ⊢
  rw [decode, detect_of_ascii ha hb.1]
  exact hdecode

end Json

end LabelLayout
