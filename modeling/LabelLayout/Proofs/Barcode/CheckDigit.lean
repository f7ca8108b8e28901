import LabelLayout.Proofs.Barcode.Retail

/-!
# `LabelLayout.Proofs.Barcode.CheckDigit`: what the check digits of retail codes find

A retail code that is complete is taken exactly when its control sum is a multiple of ten.
The weights are one and three, which have no factor in common with ten, so a digit that is
read wrong moves the control sum off the multiples of ten. Neighbouring digits that change
places move it by twice their difference, which goes unnoticed when the difference is five
(`checkDigit_detects`).

EAN-13 begins with the weight one where UPC-A begins with the weight three. A zero in front
of a UPC-A code weighs nothing and shifts every digit to the other weight, so UPC-A is EAN-13
with a leading zero (`upc_iff_ean13`).
-/

set_option autoImplicit false

namespace LabelLayout.Barcode

open Text (digitOf)

variable {name : String} {symbology : Symbology} {code : Retail} {digits : List Char}

/-! ### Complete codes -/

/-- A symbology takes a value as it is. -/
def Keeps (name : String) (value : List Char) : Prop :=
  normalizeAs name (String.ofList value) = .ok (String.ofList value)

/-- A symbology refuses a value by one of its rules. -/
def Refuses (name : String) (value : List Char) : Prop :=
  ∃ refusal, normalizeAs name (String.ofList value) = .error (.refused refusal)

namespace Retail

section

variable {before after : List Char} {a b : Char}

theorem IsFull.change (h : code.IsFull (before ++ a :: after)) (hb : b.isDigit = true) :
    code.IsFull (before ++ b :: after) where
  length := by
    rw [← h.length, List.length_append, List.length_append, List.length_cons, List.length_cons]
  ascii := by
    obtain ⟨hbefore, hafter⟩ := List.forall_mem_append.mp h.ascii
    exact List.forall_mem_append.mpr
      ⟨hbefore, List.forall_mem_cons.mpr ⟨hb, (List.forall_mem_cons.mp hafter).2⟩⟩

theorem IsFull.swap (h : code.IsFull (before ++ a :: b :: after)) :
    code.IsFull (before ++ b :: a :: after) :=
  have hperm : (before ++ b :: a :: after).Perm (before ++ a :: b :: after) :=
    (List.Perm.swap a b after).append_left before
  ⟨hperm.length_eq.trans h.length, fun c hc => h.ascii c (hperm.mem_iff.mp hc)⟩

/-- A digit that is changed leaves no more than one of the two control sums a multiple of ten. -/
theorem IsBalanced.not_dvd_of_change (h : code.IsBalanced) (ha : a.isDigit = true)
    (hb : b.isDigit = true) (hne : b ≠ a) (hdvd : 10 ∣ code.controlSum (before ++ a :: after)) :
    ¬ 10 ∣ code.controlSum (before ++ b :: after) := by
  intro hdvd'
  have hchange := code.controlSum_change before after a b
  have hlt := Text.digitOf_lt_ten a
  have hlt' := Text.digitOf_lt_ten b
  -- One and three can be cancelled modulo ten.
  have hvalue : digitOf b = digitOf a := by
    rcases h.weight_cases before.length with ⟨hweight, -⟩ | ⟨hweight, -⟩
    · rw [hweight] at hchange
      omega
    · rw [hweight] at hchange
      omega
  exact hne (Text.eq_of_digitOf_eq hb ha hvalue)

/-- Neighbours that change places leave both control sums multiples of ten when they are the
same or five apart. -/
theorem IsBalanced.dvd_swap_iff (h : code.IsBalanced)
    (hdvd : 10 ∣ code.controlSum (before ++ a :: b :: after)) :
    10 ∣ code.controlSum (before ++ b :: a :: after) ↔
      digitOf a = digitOf b ∨ digitOf a = digitOf b + 5 ∨ digitOf b = digitOf a + 5 := by
  have hswap := code.controlSum_swap before after a b
  have hlt := Text.digitOf_lt_ten a
  have hlt' := Text.digitOf_lt_ten b
  rcases h.weight_cases before.length with ⟨hweight, hnext⟩ | ⟨hweight, hnext⟩
  · rw [hweight, hnext] at hswap
    omega
  · rw [hweight, hnext] at hswap
    omega

end

end Retail

/-- A complete code is kept when its control sum is a multiple of ten, and refused otherwise. -/
theorem keeps_or_refuses (hname : symbologyOf? name = some symbology)
    (hcode : retail? symbology = some code) (h : code.IsFull digits) :
    (Keeps name digits ↔ 10 ∣ code.controlSum digits) ∧
      (Refuses name digits ↔ ¬ 10 ∣ code.controlSum digits) := by
  obtain ⟨rules, hrun⟩ := exists_rules hname hcode
  have hbalanced := isBalanced_of_retail? hcode
  obtain ⟨row, c, rfl, hrow, hc⟩ := h.exists_row
  have hdigit : Text.isDigit c = true := Text.isDigit_of_isSome (Text.isSome_of_ascii hc)
  rw [Keeps, Refuses, hrun, String.toList_ofList, hrow.normalize_append hbalanced.length_pos hdigit,
    hbalanced.dvd_controlSum_iff hrow.length hc]
  split
  · next hclosing => simp [hclosing, Except.map]
  · next hclosing => simp [hclosing, Except.map]

/-- The check digit of a retail code. What lacks it is completed by the one digit that makes
the control sum a multiple of ten. A complete code is kept when its control sum is a multiple
of ten and refused otherwise. So a code that is kept is refused after any change of one digit,
and after an exchange of neighbouring digits unless these are the same or differ by five. -/
theorem checkDigit_detects (hname : symbologyOf? name = some symbology)
    (hcode : retail? symbology = some code) :
    (∀ digits : List Char, digits.length = code.length → (∀ c ∈ digits, c.isDigit = true) →
      ∃ check : Char, check.isDigit = true ∧
        normalizeAs name (String.ofList digits) = .ok (String.ofList (digits ++ [check])) ∧
        ∀ c : Char, c.isDigit = true →
          (10 ∣ code.controlSum (digits ++ [c]) ↔ c = check)) ∧
    (∀ digits, code.IsFull digits →
      (Keeps name digits ↔ 10 ∣ code.controlSum digits) ∧
      (Refuses name digits ↔ ¬ 10 ∣ code.controlSum digits)) ∧
    (∀ before after a b, code.IsFull (before ++ a :: after) → Keeps name (before ++ a :: after) →
      b.isDigit = true → b ≠ a → Refuses name (before ++ b :: after)) ∧
    ∀ before after a b, code.IsFull (before ++ a :: b :: after) →
      Keeps name (before ++ a :: b :: after) → (Refuses name (before ++ b :: a :: after) ↔
        a ≠ b ∧ digitOf a ≠ digitOf b + 5 ∧ digitOf b ≠ digitOf a + 5) := by
  have hbalanced := isBalanced_of_retail? hcode
  have hfull : ∀ digits, code.IsFull digits → _ := fun _ h => keeps_or_refuses hname hcode h
  refine ⟨fun digits hlength hascii => ?_, hfull, fun before after a b h hkeeps hb hne => ?_,
    fun before after a b h hkeeps => ?_⟩
  · obtain ⟨rules, hrun⟩ := exists_rules hname hcode
    have hrow := Retail.isRow_of_ascii hlength hascii
    refine ⟨code.closing digits, code.isDigit_closing digits, ?_,
      fun c hc => hbalanced.dvd_controlSum_iff hlength hc⟩
    rw [hrun, String.toList_ofList, hrow.normalize_eq hbalanced.length_pos]
    rfl
  · have ha : a.isDigit = true := h.ascii a (by simp)
    rw [(hfull _ h).1] at hkeeps
    rw [(hfull _ (h.change hb)).2]
    exact hbalanced.not_dvd_of_change ha hb hne hkeeps
  · have ha : a.isDigit = true := h.ascii a (by simp)
    have hb : b.isDigit = true := h.ascii b (by simp)
    have hvalue : digitOf a = digitOf b ↔ a = b :=
      ⟨Text.eq_of_digitOf_eq ha hb, congrArg digitOf⟩
    rw [(hfull _ h).1] at hkeeps
    rw [(hfull _ h.swap).2, hbalanced.dvd_swap_iff hkeeps, hvalue, not_or, not_or]

/-- A complete EAN-13 code, with its first digit changed and with its first digits exchanged. -/
theorem checkDigit_detects_sample :
    Keeps "EAN13" "5901234123457".toList ∧ Refuses "EAN13" "6901234123457".toList ∧
      Refuses "EAN13" "9501234123457".toList := by
  have hname : symbologyOf? "EAN13" = some .ean13 := by decide +kernel
  have hfull : ean13.IsFull "5901234123457".toList :=
    ⟨by decide +kernel, List.all_eq_true.mp (by decide +kernel)⟩
  have hkeeps : Keeps "EAN13" "5901234123457".toList := by
    show _ = _
    decide +kernel
  obtain ⟨-, -, hchange, hswap⟩ := checkDigit_detects hname rfl
  exact ⟨hkeeps, hchange [] "901234123457".toList '5' '6' hfull hkeeps (by decide) (by decide),
    (hswap [] "01234123457".toList '5' '9' hfull hkeeps).mpr (by decide +kernel)⟩

/-! ### UPC-A within EAN-13 -/

section

variable {text : List Char}

/-- A zero in front shifts the digits of UPC-A to their weights in EAN-13. -/
theorem complete_zero_cons (digits : List Char) :
    ean13.complete ('0' :: digits) = '0' :: upcA.complete digits := by
  have hclosing : ean13.closing ('0' :: digits) = upcA.closing digits := by
    have hsum : weightedSum 1 3 (('0' :: digits).map digitOf) =
        weightedSum 3 1 (digits.map digitOf) := by
      rw [List.map_cons, weightedSum, show digitOf '0' = 0 by decide +kernel, Nat.mul_zero,
        Nat.zero_add]
    rw [Retail.closing, Retail.closing]
    exact congrArg checkDigit hsum
  rw [Retail.complete, Retail.complete, hclosing, List.cons_append]

theorem isRow_zero_cons : ean13.IsRow ('0' :: digits) ↔ upcA.IsRow digits := by
  constructor
  · rintro ⟨hlength, hdecimal⟩
    exact ⟨Nat.succ.inj hlength, (List.forall_mem_cons.mp hdecimal).2⟩
  · rintro ⟨hlength, hdecimal⟩
    exact ⟨congrArg (· + 1) hlength, List.forall_mem_cons.mpr ⟨by decide +kernel, hdecimal⟩⟩

/-- EAN-13 takes digits with a zero in front when UPC-A takes them without it. -/
theorem normalize_zero_cons (rules rules' : Retail.Rules)
    (htext : ∀ c ∈ text, Text.isDigit c = true) {w : List Char} :
    ean13.normalize rules ('0' :: text) = .ok w ↔
      ∃ v, w = '0' :: v ∧ upcA.normalize rules' text = .ok v := by
  have htrim : Text.trim text = text := Text.trim_of_isDigit htext
  have htrim' : Text.trim ('0' :: text) = '0' :: text :=
    Text.trim_of_isDigit (List.forall_mem_cons.mpr ⟨by decide +kernel, htext⟩)
  have hean13 : 0 < ean13.length := by decide
  have hupcA : 0 < upcA.length := by decide
  simp only [Retail.normalize_eq_ok hean13, Retail.normalize_eq_ok hupcA, htrim, htrim']
  constructor
  · rintro ⟨row, hrow, rfl, hsplit⟩
    -- A row of EAN-13 is not empty, so its first digit is the zero.
    obtain ⟨c, digits, rfl⟩ : ∃ c digits, row = c :: digits :=
      List.exists_cons_of_length_eq_add_one hrow.length
    obtain rfl : c = '0' := by
      rcases hsplit with hsplit | hsplit <;> exact (List.cons.inj hsplit).1.symm
    rw [complete_zero_cons, List.cons.injEq, List.cons.injEq] at hsplit
    exact ⟨_, complete_zero_cons digits, digits, isRow_zero_cons.mp hrow, rfl,
      hsplit.imp And.right And.right⟩
  · rintro ⟨_, rfl, digits, hrow, rfl, hsplit⟩
    refine ⟨'0' :: digits, isRow_zero_cons.mpr hrow, (complete_zero_cons digits).symm, ?_⟩
    rw [complete_zero_cons]
    exact hsplit.imp (congrArg _) (congrArg _)

/-- The check digit of any text in UPC-A is that of EAN-13 with a zero in front. -/
theorem checkDigit?_zero_cons (text : List Char) :
    ean13.checkDigit? ('0' :: text) = upcA.checkDigit? text := by
  have hpoints : Text.takePoints 12 ('0' :: text) = '0' :: Text.takePoints 11 text := by
    rw [Text.takePoints, Text.codePoints_cons (Text.ne_mark (by decide)), List.take_succ_cons,
      List.flatMap_cons]
    rfl
  have hvalues : digitValues ('0' :: Text.takePoints 11 text) =
      (digitValues (Text.takePoints 11 text)).map (0 :: ·) := by
    rw [digitValues, if_pos (by decide +kernel),
      show Text.decimalValue? '0' = some 0 by decide +kernel]
  have hdigit : ∀ values, ean13.checkDigitOf? (0 :: values) = upcA.checkDigitOf? values := by
    intro values
    simp only [Retail.checkDigitOf?, ean13, upcA, List.length_cons, weightedSum, Nat.mul_zero,
      Nat.zero_add, Nat.reduceEqDiff]
    rfl
  rw [Retail.checkDigit?, Retail.checkDigit?]
  show (digitValues (Text.takePoints 12 ('0' :: text)) >>= _) =
    (digitValues (Text.takePoints 11 text) >>= _)
  rw [hpoints, hvalues]
  cases digitValues (Text.takePoints 11 text) with
  | error f => rfl
  | ok values => exact congrArg Except.ok (hdigit values)

/-- UPC-A is EAN-13 with a leading zero. Of digits of any script, and so of those from `0` to
`9`, UPC-A makes `v` exactly when EAN-13 makes `v` with a zero in front of them with a zero in
front, and EAN-13 makes nothing else of them. The check digits agree, and eleven digits from
`0` to `9` have one. -/
theorem upc_iff_ean13 {digits : String} (h : ∀ c ∈ digits.toList, Text.isDigit c = true) :
    (∀ v, normalizeAs "UPC" digits = .ok v ↔
      normalizeAs "EAN13" ("0" ++ digits) = .ok ("0" ++ v)) ∧
    (∀ w, normalizeAs "EAN13" ("0" ++ digits) = .ok w → ∃ v, w = "0" ++ v) ∧
    ean13.checkDigit? ("0" ++ digits).toList = upcA.checkDigit? digits.toList ∧
    (digits.length = 11 → (∀ c ∈ digits.toList, c.isDigit = true) →
      ∃ c, upcA.checkDigit? digits.toList = .ok (some c)) := by
  have hupc : normalizeAs "UPC" digits =
      (upcA.normalize upcARules digits.toList).map String.ofList := by
    rw [normalizeAs, show symbologyOf? "UPC" = some .upc by decide +kernel]
    rfl
  have hean : normalizeAs "EAN13" ("0" ++ digits) =
      (ean13.normalize ean13Rules ('0' :: digits.toList)).map String.ofList := by
    rw [normalizeAs, show symbologyOf? "EAN13" = some .ean13 by decide +kernel,
      show '0' :: digits.toList = ("0" ++ digits).toList by rw [String.toList_append]; rfl]
    rfl
  have hzero : ∀ v : List Char, String.ofList ('0' :: v) = "0" ++ String.ofList v :=
    fun v => @String.ofList_append ['0'] v
  simp only [hupc, hean, map_eq_ok]
  refine ⟨fun v => ⟨?_, ?_⟩, ?_, ?_, fun hlength hascii => ?_⟩
  · rintro ⟨v, hv, rfl⟩
    exact ⟨_, (normalize_zero_cons _ _ h).mpr ⟨v, rfl, hv⟩, hzero v⟩
  · rintro ⟨w, hw, hwv⟩
    obtain ⟨v, rfl, hv⟩ := (normalize_zero_cons _ _ h).mp hw
    rw [hzero, String.append_right_inj] at hwv
    exact ⟨v, hv, hwv⟩
  · rintro _ ⟨w, hw, rfl⟩
    obtain ⟨v, rfl, -⟩ := (normalize_zero_cons ean13Rules upcARules h).mp hw
    exact ⟨_, hzero v⟩
  · rw [String.toList_append]
    exact checkDigit?_zero_cons digits.toList
  · have hrow : upcA.IsRow digits.toList :=
      Retail.isRow_of_ascii (String.length_toList.trans hlength) hascii
    exact ⟨_, hrow.checkDigit?_eq⟩

/-- A UPC-A code without its check digit, and with a zero in front. -/
theorem upc_iff_ean13_sample :
    normalizeAs "UPC" "03600029145" = .ok "036000291452" ∧
      normalizeAs "EAN13" ("0" ++ "03600029145") = .ok ("0" ++ "036000291452") := by
  have hupc : normalizeAs "UPC" "03600029145" = .ok "036000291452" := by decide +kernel
  have hdigits : ∀ c ∈ "03600029145".toList, Text.isDigit c = true :=
    List.all_eq_true.mp (by decide +kernel)
  exact ⟨hupc, ((upc_iff_ean13 hdigits).1 _).mp hupc⟩

end

end LabelLayout.Barcode
