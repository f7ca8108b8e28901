import LabelLayout.Proofs.Json.RoundTrip
import LabelLayout.Proofs.Json.Utf8

/-!
# `LabelLayout.Proofs.Json.Spelled`: JSON texts spell code points

A text that escapes nothing but ASCII spells code points when the texts in it do
(`isSpelled_printAt`): whatever else a JSON text is written with is ASCII, and so
neither the mark nor what stands behind it.
-/

set_option autoImplicit false

namespace LabelLayout

namespace Text

theorem isSpelled_nil : IsSpelled [] := ⟨[], by simp, rfl⟩

theorem isSpelled_spell {code : Nat} (h : code < 0x110000) : IsSpelled (spell code) :=
  ⟨[code], by simpa using h, by simp⟩

theorem IsSpelled.append {cs ds : List Char} (hcs : IsSpelled cs) (hds : IsSpelled ds) :
    IsSpelled (cs ++ ds) := by
  obtain ⟨codes, hcodes, rfl⟩ := hcs
  obtain ⟨more, hmore, rfl⟩ := hds
  refine ⟨codes ++ more, fun code hcode => ?_, List.flatMap_append.symm⟩
  rcases List.mem_append.mp hcode with hcode | hcode
  · exact hcodes code hcode
  · exact hmore code hcode

/-- A text without the mark spells the codes of its characters. -/
theorem isSpelled_of_notMem {cs : List Char} (h : mark ∉ cs) : IsSpelled cs := by
  induction cs with
  | nil => exact isSpelled_nil
  | cons c cs ih =>
    simp only [List.mem_cons, not_or] at h
    have hcode : c.toNat < 0x110000 := by
      rcases c.valid with hc | hc
      · exact Nat.lt_trans hc (by decide)
      · exact hc.2
    have hspell := isSpelled_spell hcode
    rw [Json.spell_toNat (Ne.symm h.1)] at hspell
    exact hspell.append (ih h.2)

/-- So does a text of ASCII characters. -/
theorem isSpelled_of_ascii (cs : List Char) (h : ∀ c ∈ cs, c.toNat < 0x80) :
    IsSpelled cs :=
  isSpelled_of_notMem fun hmem => absurd (h mark hmem) (by decide)

/-- An ASCII character in front changes nothing. -/
theorem IsSpelled.cons {c : Char} {cs : List Char} (hc : c.toNat < 0x80) (hcs : IsSpelled cs) :
    IsSpelled (c :: cs) :=
  (isSpelled_of_ascii [c] (by simpa using hc)).append hcs

end Text

namespace Json

open Text (IsSpelled)

/-! ### Texts -/

theorem escapeChar_of_not {c : Char} (h : ¬ isEscaped c) : escapeChar c = [c] := by
  simp only [isEscaped, not_or] at h
  obtain ⟨hquote, hslash, hlow⟩ := h
  have hne : ∀ d ∈ ['\n', '\r', '\t', '\x08', '\x0c'], c ≠ d := by
    rintro d hd rfl
    simp only [List.mem_cons, List.not_mem_nil, or_false] at hd
    rcases hd with rfl | rfl | rfl | rfl | rfl <;> exact hlow (by decide)
  rw [escapeChar, if_neg hquote, if_neg hslash, if_neg (hne _ (by decide)),
    if_neg (hne _ (by decide)), if_neg (hne _ (by decide)), if_neg (hne _ (by decide)),
    if_neg (hne _ (by decide)), if_neg hlow]

theorem flatMap_escapeChar_of_not {cs : List Char} (h : ∀ c ∈ cs, ¬ isEscaped c) :
    cs.flatMap escapeChar = cs := by
  induction cs with
  | nil => rfl
  | cons c cs ih =>
    rw [List.flatMap_cons, escapeChar_of_not (h c List.mem_cons_self),
      ih fun d hd => h d (List.mem_cons_of_mem _ hd), List.singleton_append]

/-- An escape is written in ASCII. -/
theorem ascii_escapeChar {c : Char} (h : isEscaped c) : ∀ d ∈ escapeChar c, d.toNat < 0x80 := by
  have hlow := lt_of_isEscaped h
  -- What is escaped is ASCII itself, so there are few characters to look at.
  have hall : ∀ n < 0x80, (escapeChar (Char.ofNat n)).all (fun d => d.toNat < 0x80) = true := by
    decide +kernel
  have hc := hall c.toNat hlow
  rw [Char.ofNat_toNat] at hc
  simpa using hc

/-- A code point is written as it is spelled, or in ASCII. -/
theorem isSpelled_escape_spell {code : Nat} (h : code < 0x110000) :
    IsSpelled ((Text.spell code).flatMap escapeChar) := by
  by_cases hall : ∀ c ∈ Text.spell code, ¬ isEscaped c
  · rw [flatMap_escapeChar_of_not hall]
    exact Text.isSpelled_spell h
  -- Only a code point that is its own character is escaped.
  · have hmark : ¬ isEscaped Text.mark := fun hc =>
      absurd (lt_of_isEscaped hc) (by rw [Text.toNat_mark]; decide)
    rw [Text.spell] at hall ⊢
    split at hall
    · next hsurrogate =>
      have hrange : 0xd800 ≤ code ∧ code < 0xe000 := by
        simp only [Text.isSurrogate, Text.isHighSurrogate, Text.isLowSurrogate, Bool.or_eq_true,
          Bool.and_eq_true, decide_eq_true_eq] at hsurrogate
        omega
      have hnat : (Char.ofNat (Text.markedOffset + code)).toNat = Text.markedOffset + code := by
        refine Text.toNat_ofNat (.inr ⟨?_, ?_⟩) <;> simp only [Text.markedOffset] <;> omega
      refine absurd (fun c hc => ?_) hall
      simp only [List.mem_cons, List.not_mem_nil, or_false] at hc
      rcases hc with rfl | rfl
      · exact hmark
      · intro hc
        have hlow := lt_of_isEscaped hc
        rw [hnat] at hlow
        simp only [Text.markedOffset] at hlow
        omega
    · split at hall
      · refine absurd (fun c hc => ?_) hall
        simp only [List.mem_cons, List.not_mem_nil, or_false, or_self] at hc
        rw [hc]
        exact hmark
      · next hsurrogate hlast =>
        simp only [List.mem_singleton, forall_eq, Decidable.not_not] at hall
        rw [if_neg hsurrogate, if_neg hlast, List.flatMap_singleton]
        exact Text.isSpelled_of_ascii _ (ascii_escapeChar hall)

/-- A text between quotes spells code points if it did without them. -/
theorem isSpelled_printText {text : List Char} (h : IsSpelled text) :
    IsSpelled (printText text) := by
  obtain ⟨codes, hcodes, rfl⟩ := h
  have hescaped : IsSpelled ((codes.flatMap Text.spell).flatMap escapeChar) := by
    induction codes with
    | nil => exact Text.isSpelled_nil
    | cons code codes ih =>
      rw [List.flatMap_cons, List.flatMap_append]
      exact (isSpelled_escape_spell (hcodes code List.mem_cons_self)).append
        (ih fun c hc => hcodes c (List.mem_cons_of_mem _ hc))
  exact (hescaped.append (Text.isSpelled_of_notMem (by decide))).cons (by decide)

/-! ### Numbers -/

theorem ascii_of_isDigit {c : Char} (h : c.isDigit = true) : c.toNat < 0x80 := by
  simp only [Char.isDigit, Bool.and_eq_true, decide_eq_true_eq] at h
  have hle : c.toNat ≤ 57 := h.2
  omega

theorem ascii_toDigits (n : Nat) : ∀ c ∈ Nat.toDigits 10 n, c.toNat < 0x80 :=
  fun c hc => ascii_of_isDigit (isDigit_toDigits n c hc)

theorem ascii_zeros (k : Nat) : ∀ c ∈ List.replicate k '0', c.toNat < 0x80 :=
  fun c hc => ascii_of_isDigit (isDigit_zeros k c hc)

theorem ascii_decimal (layout : DecimalLayout) (d : Decimal) :
    ∀ c ∈ d.text layout, c.toNat < 0x80 := by
  have hdigits := ascii_toDigits d.digits
  rw [Decimal.text]
  split
  · split
    · simp only [List.forall_mem_cons, List.forall_mem_append]
      exact ⟨by decide, by decide, ascii_zeros _, hdigits⟩
    · split
      · simp only [List.forall_mem_append]
        exact ⟨⟨hdigits, ascii_zeros _⟩, by simp⟩
      · simp only [List.forall_mem_cons, List.forall_mem_append]
        exact ⟨fun c hc => hdigits c (List.mem_of_mem_take hc), by decide,
          fun c hc => hdigits c (List.mem_of_mem_drop hc)⟩
  · simp only [List.forall_mem_cons, List.forall_mem_append]
    refine ⟨?_, by decide, ?_, ascii_zeros _, ascii_toDigits _⟩
    · split
      · next hds =>
        rw [hds] at hdigits
        simp only [List.forall_mem_cons] at hdigits ⊢
        exact ⟨hdigits.1, by decide, hdigits.2.1, hdigits.2.2⟩
      · exact hdigits
    · split <;> simp

/-- A number is written in ASCII. -/
theorem ascii_text (x : Number) : ∀ c ∈ x.text .design, c.toNat < 0x80 := by
  have signed : ∀ (s : Bool) {cs : List Char}, (∀ c ∈ cs, c.toNat < 0x80) →
      ∀ c ∈ Binary64.signText s cs, c.toNat < 0x80 := by
    intro s cs hcs
    cases s with
    | false => exact hcs
    | true => exact List.forall_mem_cons.mpr ⟨by decide, hcs⟩
  match x with
  | .int n => exact signed _ (ascii_toDigits _)
  | .float .nan => simp [Number.text, Binary64.text, DecimalLayout.design]
  | .float (.infinite s) => exact signed s (by simp [DecimalLayout.design])
  | .float (.finite s u hu) =>
    rw [Number.text, Binary64.text]
    refine signed s ?_
    split
    · simp
    · exact ascii_decimal _ _

/-! ### Values -/

mutual

/-- Whether every text in a value spells code points, the names of members included. -/
def SpellsCodePoints : Datum → Prop
  | .str text => IsSpelled text.toList
  | .list items => SpellCodePoints items
  | .object members => MembersSpellCodePoints members
  | _ => True

def SpellCodePoints : List Datum → Prop
  | [] => True
  | v :: rest => SpellsCodePoints v ∧ SpellCodePoints rest

def MembersSpellCodePoints : List (String × Datum) → Prop
  | [] => True
  | (name, v) :: rest =>
    IsSpelled name.toList ∧ SpellsCodePoints v ∧ MembersSpellCodePoints rest

end

/-- A blank is ASCII. -/
theorem ascii_of_isSpace {c : Char} (h : isSpace c = true) : c.toNat < 0x80 := by
  simp only [isSpace, Bool.or_eq_true, beq_iff_eq] at h
  rcases h with ((rfl | rfl) | rfl) | rfl <;> decide

variable {layout : Layout}

theorem isSpelled_lineBreak (hlayout : layout.IsBlank) (depth : Nat) :
    IsSpelled (layout.lineBreak depth) :=
  Text.isSpelled_of_ascii _ fun c hc => ascii_of_isSpace (hlayout depth c hc)

mutual

/-- The text of a value spells code points if the texts in it do. -/
theorem isSpelled_printAt (hlayout : layout.IsBlank) : ∀ (v : Datum) (depth : Nat),
    SpellsCodePoints v → IsSpelled (printAt layout depth v)
  | .null, _, _ => Text.isSpelled_of_notMem (by decide : Text.mark ∉ "null".toList)
  | .bool true, _, _ => Text.isSpelled_of_notMem (by decide : Text.mark ∉ "true".toList)
  | .bool false, _, _ => Text.isSpelled_of_notMem (by decide : Text.mark ∉ "false".toList)
  | .num x, _, _ => Text.isSpelled_of_ascii _ (ascii_text x)
  | .str _, _, h => isSpelled_printText h
  | .list [], _, _ => Text.isSpelled_of_notMem (by decide : Text.mark ∉ ['[', ']'])
  | .object [], _, _ => Text.isSpelled_of_notMem (by decide : Text.mark ∉ ['\x7b', '\x7d'])
  | .list (v :: items), depth, h => by
    have hv := isSpelled_printAt hlayout v (depth + 1) h.1
    have hitems := isSpelled_printItems hlayout items (depth + 1) h.2
    have hopen := (isSpelled_lineBreak hlayout (depth + 1)).cons (c := '[') (by decide)
    have hclose := isSpelled_lineBreak hlayout depth
    exact (((hopen.append hv).append hitems).append hclose).append
      (Text.isSpelled_of_notMem (by decide))
  | .object ((name, v) :: members), depth, h => by
    have hname := isSpelled_printText h.1
    have hv := isSpelled_printAt hlayout v (depth + 1) h.2.1
    have hmembers := isSpelled_printMembers hlayout members (depth + 1) h.2.2
    have hopen := (isSpelled_lineBreak hlayout (depth + 1)).cons (c := '\x7b') (by decide)
    have hclose := isSpelled_lineBreak hlayout depth
    have hvalue := (hv.cons (c := ' ') (by decide)).cons (c := ':') (by decide)
    exact ((((hopen.append hname).append hvalue).append hmembers).append hclose).append
      (Text.isSpelled_of_notMem (by decide))

theorem isSpelled_printItems (hlayout : layout.IsBlank) : ∀ (items : List Datum) (depth : Nat),
    SpellCodePoints items → IsSpelled (printItems layout depth items)
  | [], _, _ => Text.isSpelled_nil
  | v :: items, depth, h => by
    have hopen := (isSpelled_lineBreak hlayout depth).cons (c := ',') (by decide)
    exact (hopen.append (isSpelled_printAt hlayout v depth h.1)).append
      (isSpelled_printItems hlayout items depth h.2)

theorem isSpelled_printMembers (hlayout : layout.IsBlank) :
    ∀ (members : List (String × Datum)) (depth : Nat), MembersSpellCodePoints members →
      IsSpelled (printMembers layout depth members)
  | [], _, _ => Text.isSpelled_nil
  | (name, v) :: members, depth, h => by
    have hopen := (isSpelled_lineBreak hlayout depth).cons (c := ',') (by decide)
    have hv := isSpelled_printAt hlayout v depth h.2.1
    have hvalue := (hv.cons (c := ' ') (by decide)).cons (c := ':') (by decide)
    exact ((hopen.append (isSpelled_printText h.1)).append hvalue).append
      (isSpelled_printMembers hlayout members depth h.2.2)

end

end Json

end LabelLayout
