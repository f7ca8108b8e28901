import LabelLayout.Json.Reader
import LabelLayout.Proofs.Binary64.Shortest

/-!
# `LabelLayout.Proofs.Json.Number`: numbers survive the JSON text

`readNumber_text` is the round trip: the text of a number, in front of anything that
does not go on as a number would, is read as that number, and what follows is left.
An integer stays an integer and a double a double. Only an integer of more than
`maxIntegerDigits` digits is excepted.

A double's text lays out its shortest decimal in one of four shapes, and each of
them is read as a decimal that differs at most by zeros moved between the digits
and the exponent (`readMagnitude_text`).

`isWritable_of_readNumber` is the other direction: what is read can be written.
-/

set_option autoImplicit false

namespace LabelLayout.Json

/-! ### Digits -/

/-- The text does not start with a digit. -/
def NoDigit (cs : List Char) : Prop := ∀ c rest, cs = c :: rest → c.isDigit = false

/-- The text does not go on as a number would. -/
def EndsNumber (cs : List Char) : Prop :=
  ∀ c rest, cs = c :: rest → c.isDigit = false ∧ c ≠ '.' ∧ c ≠ 'e' ∧ c ≠ 'E'

theorem EndsNumber.noDigit {cs : List Char} (h : EndsNumber cs) : NoDigit cs :=
  fun c rest hc => (h c rest hc).1

theorem noDigit_cons {c : Char} (h : c.isDigit = false) (cs : List Char) :
    NoDigit (c :: cs) := by
  intro d rest hd
  cases hd
  exact h

theorem takeWhile_of_noDigit {cs : List Char} (h : NoDigit cs) :
    cs.takeWhile Char.isDigit = [] := by
  cases cs with
  | nil => rfl
  | cons c rest => rw [List.takeWhile_cons, h c rest rfl, if_neg (by decide)]

/-- Digits are cut off where they end. -/
theorem spanDigits_append {ds rest : List Char} (hds : ∀ c ∈ ds, c.isDigit = true)
    (hrest : NoDigit rest) : spanDigits (ds ++ rest) = (ds, rest) := by
  have htake : (ds ++ rest).takeWhile Char.isDigit = ds := by
    rw [List.takeWhile_append_of_pos hds, takeWhile_of_noDigit hrest, List.append_nil]
  have hcut := List.takeWhile_append_dropWhile (p := Char.isDigit) (l := ds ++ rest)
  rw [htake] at hcut
  rw [spanDigits, htake, List.append_cancel_left hcut]

/-- What `spanDigits` cuts off are digits. -/
theorem isDigit_of_spanDigits {cs ds rest : List Char} (h : spanDigits cs = (ds, rest)) :
    ∀ c ∈ ds, c.isDigit = true := by
  intro c hc
  rw [spanDigits, Prod.mk.injEq] at h
  rw [← h.1] at hc
  exact List.all_eq_true.mp List.all_takeWhile c hc

theorem digitsValue_eq (ds : List Char) : digitsValue ds = Nat.ofDigitChars 10 ds 0 := rfl

/-- The decimal digits of a number denote it. -/
@[simp]
theorem digitsValue_toDigits (n : Nat) : digitsValue (Nat.toDigits 10 n) = n :=
  Nat.ofDigitChars_ten_toDigits

/-- Zeros in front of digits do not count. -/
theorem digitsValue_zeros_append (k : Nat) (ds : List Char) :
    digitsValue (List.replicate k '0' ++ ds) = digitsValue ds := by
  rw [digitsValue_eq, Nat.ofDigitChars_append, Nat.ofDigitChars_replicate_zero, Nat.mul_zero]
  rfl

/-- Zeros behind digits multiply by powers of ten. -/
theorem digitsValue_append_zeros (k : Nat) (ds : List Char) :
    digitsValue (ds ++ List.replicate k '0') = digitsValue ds * 10 ^ k := by
  rw [digitsValue_eq, Nat.ofDigitChars_append, Nat.ofDigitChars_replicate_zero, Nat.mul_comm]
  rfl

/-- So many digits denote less than that power of ten. -/
theorem digitsValue_lt {ds : List Char} (h : ∀ c ∈ ds, c.isDigit = true) :
    digitsValue ds < 10 ^ ds.length := by
  induction ds with
  | nil => decide
  | cons c ds ih =>
    have hlt := ih fun d hd => h d (List.mem_cons_of_mem _ hd)
    have hval : c.toNat - '0'.toNat ≤ 9 := by
      have hc := h c List.mem_cons_self
      simp only [Char.isDigit, Bool.and_eq_true, decide_eq_true_eq] at hc
      have hle : c.toNat ≤ 57 := hc.2
      have h0 : '0'.toNat = 48 := rfl
      omega
    rw [digitsValue_eq, Nat.ofDigitChars_cons, Nat.ofDigitChars_eq_ofDigitChars_zero,
      ← digitsValue_eq, Nat.mul_zero, Nat.zero_add, List.length_cons, Nat.pow_succ]
    calc 10 ^ ds.length * (c.toNat - '0'.toNat) + digitsValue ds
        < 10 ^ ds.length * (c.toNat - '0'.toNat) + 10 ^ ds.length := by omega
      _ = 10 ^ ds.length * (c.toNat - '0'.toNat + 1) := (Nat.mul_succ ..).symm
      _ ≤ 10 ^ ds.length * 10 := Nat.mul_le_mul_left _ (Nat.succ_le_succ hval)

theorem isDigit_toDigits (n : Nat) : ∀ c ∈ Nat.toDigits 10 n, c.isDigit = true :=
  fun _ hc => Nat.isDigit_of_mem_toDigits (by decide) (by decide) hc

theorem isDigit_zeros (k : Nat) : ∀ c ∈ List.replicate k '0', c.isDigit = true := by
  intro c hc
  rw [List.eq_of_mem_replicate hc]
  decide

/-- So do fewer digits. The power is not written as an operator: one with a large exponent
is not to be evaluated. -/
theorem digitsValue_lt_pow {ds : List Char} {k : Nat} (h : ∀ c ∈ ds, c.isDigit = true)
    (hlen : ds.length ≤ k) : digitsValue ds < Nat.pow 10 k :=
  Nat.lt_of_lt_of_le (digitsValue_lt h) (Nat.pow_le_pow_right (by decide) hlen)

/-- Only zero starts with a zero. -/
theorem toDigits_eq_cons {n : Nat} (h : n ≠ 0) :
    ∃ c ds, Nat.toDigits 10 n = c :: ds ∧ c ≠ '0' := by
  -- By strong induction: the first digit of a longer number is that of its tenth.
  induction n using Nat.strongRecOn with
  | _ n ih =>
    rw [Nat.toDigits_eq_if (by decide)]
    by_cases hlt : n < 10
    · rw [if_pos hlt]
      exact ⟨n.digitChar, [], rfl, by simpa using h⟩
    · obtain ⟨c, ds, hds, hc⟩ := ih (n / 10) (by omega) (by omega)
      rw [if_neg hlt, hds]
      exact ⟨c, ds ++ [(n % 10).digitChar], rfl, hc⟩

/-! ### The parts of a number -/

/-- Digits that start with another one than zero are an integer part. -/
theorem readWhole_cons {c : Char} {ds rest : List Char} (hc : c ≠ '0')
    (hds : ∀ d ∈ c :: ds, d.isDigit = true) (hrest : NoDigit rest) :
    readWhole (c :: ds ++ rest) = some (c :: ds, rest) := by
  have hspan := spanDigits_append hds hrest
  rw [List.cons_append] at hspan ⊢
  rw [readWhole.eq_def]
  split
  · next h => exact absurd (List.cons.inj h).1 hc
  · rw [hspan]

/-- The decimal digits of a number are an integer part. -/
theorem readWhole_toDigits (n : Nat) {rest : List Char} (hrest : NoDigit rest) :
    readWhole (Nat.toDigits 10 n ++ rest) = some (Nat.toDigits 10 n, rest) := by
  by_cases h0 : n = 0
  · subst h0
    rw [Nat.toDigits_zero]
    rfl
  · obtain ⟨c, ds, hds, hc⟩ := toDigits_eq_cons h0
    have hall := isDigit_toDigits n
    rw [hds] at hall ⊢
    exact readWhole_cons hc hall hrest

theorem readPlaces_point {ds rest : List Char} (hne : ds ≠ [])
    (hds : ∀ c ∈ ds, c.isDigit = true) (hrest : NoDigit rest) :
    readPlaces ('.' :: (ds ++ rest)) = (some ds, rest) := by
  rw [readPlaces, spanDigits_append hds hrest]
  cases ds with
  | nil => exact absurd rfl hne
  | cons c ds => rfl

theorem readPlaces_of_ne {cs : List Char} (h : ∀ c rest, cs = c :: rest → c ≠ '.') :
    readPlaces cs = (none, cs) := by
  rw [readPlaces.eq_def]
  split
  · next rest => exact absurd rfl (h '.' rest rfl)
  · rfl

theorem readExponent_of_ends {cs : List Char} (h : EndsNumber cs) :
    readExponent cs = (none, cs) := by
  cases cs with
  | nil => rfl
  | cons c rest =>
    obtain ⟨-, -, he, hE⟩ := h c rest rfl
    rw [readExponent, if_neg]
    rintro (hc | hc)
    · exact he hc
    · exact hE hc

/-- An exponent with its sign is read as the integer it is. -/
theorem readExponent_signed (e : Int) {ds rest : List Char} (hne : ds ≠ [])
    (hds : ∀ c ∈ ds, c.isDigit = true) (hval : digitsValue ds = e.natAbs)
    (hrest : NoDigit rest) :
    readExponent ('e' :: (if e < 0 then '-' else '+') :: (ds ++ rest)) = (some e, rest) := by
  have hsign : readSign ((if e < 0 then '-' else '+') :: (ds ++ rest))
      = (decide (e < 0), ds ++ rest) := by
    by_cases he : e < 0
    · rw [if_pos he, decide_eq_true he]
      rfl
    · rw [if_neg he, decide_eq_false he]
      rfl
  obtain ⟨d, ds, rfl⟩ := List.exists_cons_of_ne_nil hne
  rw [readExponent, if_pos (.inl rfl), hsign]
  simp only [spanDigits_append hds hrest, hval, Prod.mk.injEq, Option.some.injEq, and_true,
    decide_eq_true_eq]
  split <;> omega

/-! ### Doubles -/

/-- A number with decimal places or an exponent is the double of the decimal that its
parts make up. -/
theorem readMagnitude_of_parts (negative : Bool) {cs whole r₁ r₂ r₃ : List Char}
    {places : Option (List Char)} {exponent : Option Int}
    (hwhole : readWhole cs = some (whole, r₁)) (hplaces : readPlaces r₁ = (places, r₂))
    (hexponent : readExponent r₂ = (exponent, r₃))
    (hfloat : (places.isNone && exponent.isNone) = false) :
    readMagnitude negative cs = some (.float (.ofDecimal negative
      ⟨digitsValue (whole ++ places.getD []), exponent.getD 0 - (places.getD []).length⟩),
      r₃) := by
  simp only [readMagnitude, hwhole, Option.bind_eq_bind, Option.bind_some, hplaces, hexponent,
    hfloat, Bool.false_eq_true, if_false]
  rfl

section

variable (negative : Bool) {rest : List Char}

/-- A zero, a point, more zeros and the digits. -/
theorem readMagnitude_fraction (n k : Nat) (hrest : EndsNumber rest) :
    readMagnitude negative
        ('0' :: '.' :: (List.replicate k '0' ++ Nat.toDigits 10 n) ++ rest)
      = some (.float (.ofDecimal negative ⟨n, -(k + (Nat.toDigits 10 n).length : Nat)⟩),
        rest) := by
  have hdigits : ∀ c ∈ List.replicate k '0' ++ Nat.toDigits 10 n, c.isDigit = true := by
    intro c hc
    rcases List.mem_append.mp hc with hc | hc
    · exact isDigit_zeros k c hc
    · exact isDigit_toDigits n c hc
  have hne : List.replicate k '0' ++ Nat.toDigits 10 n ≠ [] := by simp
  have hvalue : digitsValue ('0' :: (List.replicate k '0' ++ Nat.toDigits 10 n)) = n := by
    have := digitsValue_zeros_append (k + 1) (Nat.toDigits 10 n)
    rwa [List.replicate_succ, List.cons_append, digitsValue_toDigits] at this
  have hwhole : readWhole ('0' :: '.' :: (List.replicate k '0' ++ Nat.toDigits 10 n) ++ rest)
      = some (['0'], '.' :: (List.replicate k '0' ++ Nat.toDigits 10 n ++ rest)) := rfl
  rw [readMagnitude_of_parts negative hwhole
    (readPlaces_point hne hdigits hrest.noDigit) (readExponent_of_ends hrest) rfl]
  simp only [Option.getD_some, Option.getD_none, List.singleton_append, hvalue,
    List.length_append, List.length_replicate, Int.zero_sub]

/-- The digits, zeros behind them, and a zero behind the point. -/
theorem readMagnitude_whole {n : Nat} (h0 : n ≠ 0) (k : Nat) (hrest : EndsNumber rest) :
    readMagnitude negative
        (Nat.toDigits 10 n ++ List.replicate k '0' ++ ['.', '0'] ++ rest)
      = some (.float (.ofDecimal negative ⟨n * 10 ^ (k + 1), -1⟩), rest) := by
  obtain ⟨c, ds, hds, hc⟩ := toDigits_eq_cons h0
  have hdigits : ∀ d ∈ c :: (ds ++ List.replicate k '0'), d.isDigit = true := by
    intro d hd
    rw [← List.cons_append, ← hds] at hd
    rcases List.mem_append.mp hd with hd | hd
    · exact isDigit_toDigits n d hd
    · exact isDigit_zeros k d hd
  have hwhole : readWhole (Nat.toDigits 10 n ++ List.replicate k '0' ++ ['.', '0'] ++ rest)
      = some (Nat.toDigits 10 n ++ List.replicate k '0', '.' :: (['0'] ++ rest)) := by
    rw [hds, List.append_assoc _ ['.', '0']]
    exact readWhole_cons hc hdigits (noDigit_cons (by decide) _)
  rw [readMagnitude_of_parts negative hwhole
    (readPlaces_point (by decide : ['0'] ≠ []) (by simp) hrest.noDigit)
    (readExponent_of_ends hrest) rfl]
  have hvalue : digitsValue (Nat.toDigits 10 n ++ List.replicate k '0' ++ ['0'])
      = n * 10 ^ (k + 1) := by
    rw [List.append_assoc, ← List.replicate_succ', digitsValue_append_zeros,
      digitsValue_toDigits]
  simp only [Option.getD_some, Option.getD_none, hvalue]
  rfl

/-- The digits with a point between two of them. -/
theorem readMagnitude_split {n k : Nat} (h0 : n ≠ 0) (hpos : 0 < k)
    (hk : k < (Nat.toDigits 10 n).length) (hrest : EndsNumber rest) :
    readMagnitude negative
        ((Nat.toDigits 10 n).take k ++ '.' :: (Nat.toDigits 10 n).drop k ++ rest)
      = some (.float (.ofDecimal negative ⟨n, -((Nat.toDigits 10 n).length - k : Nat)⟩),
        rest) := by
  obtain ⟨c, ds, hds, hc⟩ := toDigits_eq_cons h0
  have htake : (Nat.toDigits 10 n).take k = c :: ds.take (k - 1) := by
    rw [hds, List.take_cons hpos]
  have hwhole : readWhole
      ((Nat.toDigits 10 n).take k ++ '.' :: (Nat.toDigits 10 n).drop k ++ rest)
      = some ((Nat.toDigits 10 n).take k, '.' :: ((Nat.toDigits 10 n).drop k ++ rest)) := by
    rw [List.append_assoc, List.cons_append, htake]
    refine readWhole_cons hc ?_ (noDigit_cons (by decide) _)
    intro d hd
    rw [← htake] at hd
    exact isDigit_toDigits n d (List.mem_of_mem_take hd)
  have hne : (Nat.toDigits 10 n).drop k ≠ [] := by
    rw [← List.length_pos_iff, List.length_drop]
    omega
  rw [readMagnitude_of_parts negative hwhole
    (readPlaces_point hne (fun d hd => isDigit_toDigits n d (List.mem_of_mem_drop hd))
      hrest.noDigit) (readExponent_of_ends hrest) rfl]
  simp only [Option.getD_some, Option.getD_none, List.take_append_drop, digitsValue_toDigits,
    List.length_drop, Int.zero_sub]

/-- Digits with a point behind the first, if there are others, are read as that digit and
its places. -/
theorem readWhole_mantissa {c : Char} {ds tail : List Char} (hc : c ≠ '0')
    (hall : ∀ d ∈ c :: ds, d.isDigit = true) (hdigit : NoDigit tail)
    (hpoint : ∀ d r, tail = d :: r → d ≠ '.') :
    ∃ r places, readWhole ((match c :: ds with
        | first :: second :: rest => first :: '.' :: second :: rest
        | short => short) ++ tail) = some ([c], r) ∧
      readPlaces r = (places, tail) ∧ places.getD [] = ds := by
  have hone : ∀ d ∈ [c], d.isDigit = true := by
    intro d hd
    rw [List.mem_singleton.mp hd]
    exact hall c List.mem_cons_self
  cases ds with
  | nil => exact ⟨tail, none, readWhole_cons hc hone hdigit, readPlaces_of_ne hpoint, rfl⟩
  | cons second ds =>
    have hwhole : readWhole ([c] ++ '.' :: (second :: ds ++ tail)) = some ([c], _) :=
      readWhole_cons hc hone (noDigit_cons (by decide) _)
    have hplaces : readPlaces ('.' :: (second :: ds ++ tail)) = (some (second :: ds), tail) :=
      readPlaces_point (by simp) (fun d hd => hall d (List.mem_cons_of_mem _ hd)) hdigit
    exact ⟨_, _, hwhole, hplaces, rfl⟩

/-- One digit, a point before the others if there are any, and an exponent. -/
theorem readMagnitude_scientific {n : Nat} (h0 : n ≠ 0) (e : Int) (k : Nat)
    (hrest : EndsNumber rest) :
    readMagnitude negative
        ((match Nat.toDigits 10 n with
          | first :: second :: rest => first :: '.' :: second :: rest
          | short => short) ++
          'e' :: (if e < 0 then '-' else '+') ::
            (List.replicate k '0' ++ Nat.toDigits 10 e.natAbs) ++ rest)
      = some (.float (.ofDecimal negative ⟨n, e - ((Nat.toDigits 10 n).length - 1 : Nat)⟩),
        rest) := by
  obtain ⟨c, ds, hds, hc⟩ := toDigits_eq_cons h0
  have hall := isDigit_toDigits n
  have hvalue := digitsValue_toDigits n
  have hne : List.replicate k '0' ++ Nat.toDigits 10 e.natAbs ≠ [] := by simp
  have hdigits : ∀ d ∈ List.replicate k '0' ++ Nat.toDigits 10 e.natAbs,
      d.isDigit = true := by
    intro d hd
    rcases List.mem_append.mp hd with hd | hd
    · exact isDigit_zeros k d hd
    · exact isDigit_toDigits _ d hd
  have hexponent := readExponent_signed e hne hdigits
    (by rw [digitsValue_zeros_append, digitsValue_toDigits]) hrest.noDigit
  rw [hds] at hall hvalue ⊢
  -- The mantissa ends at the letter, which is neither a digit nor a point.
  have hpoint : ∀ d r, 'e' :: (if e < 0 then '-' else '+') ::
      (List.replicate k '0' ++ Nat.toDigits 10 e.natAbs ++ rest) = d :: r → d ≠ '.' := by
    intro d r hd
    cases hd
    decide
  obtain ⟨r, places, hwhole, hplaces, hds⟩ :=
    readWhole_mantissa hc hall (noDigit_cons (by decide) _) hpoint
  rw [List.append_assoc, List.cons_append, List.cons_append,
    readMagnitude_of_parts negative hwhole hplaces hexponent (by simp)]
  simp only [hds, Option.getD_some, List.singleton_append, hvalue, List.length_cons,
    Nat.add_sub_cancel]

/-- The text of a decimal is read as a decimal of the same double. -/
theorem readMagnitude_text (layout : DecimalLayout) {d : Decimal} (h0 : d.digits ≠ 0)
    (hrest : EndsNumber rest) :
    ∃ read : Decimal, read.units = d.units ∧
      readMagnitude negative (d.text layout ++ rest)
        = some (.float (.ofDecimal negative read), rest) := by
  have hlen : 0 < (Nat.toDigits 10 d.digits).length := Nat.length_toDigits_pos
  have hpoint : d.point = (Nat.toDigits 10 d.digits).length + d.exponent := rfl
  rw [Decimal.text]
  -- The four shapes of a decimal: the first three without, the last with an exponent.
  by_cases hrange : layout.positionalFrom ≤ d.point - 1 ∧ d.point - 1 < layout.positionalTo
  · rw [if_pos hrange]
    by_cases hfraction : d.point ≤ 0
    · rw [if_pos hfraction]
      refine ⟨_, ?_, readMagnitude_fraction negative _ _ hrest⟩
      congr 2
      omega
    by_cases hwhole : 0 ≤ d.exponent
    · rw [if_neg hfraction, if_pos hwhole]
      refine ⟨_, ?_, readMagnitude_whole negative h0 _ hrest⟩
      -- The zeros that were written are digits to the reader.
      rw [← Decimal.units_shift d.digits (d.exponent.toNat + 1) d.exponent]
      congr 2
      omega
    · rw [if_neg hfraction, if_neg hwhole]
      refine ⟨_, ?_, readMagnitude_split negative h0 (by omega) (by omega) hrest⟩
      congr 2
      omega
  · rw [if_neg hrange]
    refine ⟨_, ?_, readMagnitude_scientific negative h0 _ _ hrest⟩
    congr 2
    omega

end

/-! ### Numbers -/

/-- The text starts with a digit. -/
def StartsDigit (cs : List Char) : Prop := ∃ c rest, cs = c :: rest ∧ c.isDigit = true

theorem startsDigit_toDigits (n : Nat) : StartsDigit (Nat.toDigits 10 n) := by
  obtain ⟨c, ds, hds⟩ := List.exists_cons_of_ne_nil (Nat.toDigits_ne_nil (n := n) (b := 10))
  exact ⟨c, ds, hds, isDigit_toDigits n c (by rw [hds]; exact List.mem_cons_self)⟩

/-- The text of a decimal starts with a digit in each of its shapes. -/
theorem startsDigit_text (layout : DecimalLayout) (d : Decimal) :
    StartsDigit (d.text layout) := by
  obtain ⟨c, ds, hds, hc⟩ := startsDigit_toDigits d.digits
  rw [Decimal.text, hds]
  split
  · split
    · exact ⟨'0', _, rfl, by decide⟩
    · split
      · exact ⟨c, _, rfl, hc⟩
      · have hpos : 0 < d.point.toNat := by omega
        rw [List.take_cons hpos]
        exact ⟨c, _, rfl, hc⟩
  · cases ds with
    | nil => exact ⟨c, _, rfl, hc⟩
    | cons second ds => exact ⟨c, _, rfl, hc⟩

/-- A sign in front of digits is read as the sign. -/
theorem readNumber_signText (negative : Bool) {cs rest : List Char} (h : StartsDigit cs) :
    readNumber (Binary64.signText negative cs ++ rest) = readMagnitude negative (cs ++ rest) := by
  obtain ⟨c, cs, rfl, hc⟩ := h
  -- A digit is none of the letters that the words for infinities and NaN start with.
  have hN : c ≠ 'N' := by rintro rfl; exact absurd hc (by decide)
  have hI : c ≠ 'I' := by rintro rfl; exact absurd hc (by decide)
  have hminus : c ≠ '-' := by rintro rfl; exact absurd hc (by decide)
  cases negative with
  | false =>
    rw [Binary64.signText, if_neg (by decide), List.cons_append, readNumber.eq_def]
    split
    · next h => exact absurd (List.cons.inj h).1 hN
    · next h => exact absurd (List.cons.inj h).1 hI
    · next h => exact absurd (List.cons.inj h).1 hminus
    · next h => exact absurd (List.cons.inj h).1 hminus
    · rfl
  | true =>
    rw [Binary64.signText, if_pos rfl, List.cons_append, List.cons_append, readNumber.eq_def]
    split
    · next h => exact absurd (List.cons.inj h).1 (by decide)
    · next h => exact absurd (List.cons.inj h).1 (by decide)
    · next h => exact absurd (List.cons.inj (List.cons.inj h).2).1 hI
    · next h => rw [(List.cons.inj h).2]
    · next hother => exact absurd rfl (hother _)

theorem isWritable_int_iff (n : Int) :
    (Number.int n).isWritable = true ↔ n.natAbs < Nat.pow 10 maxIntegerDigits := by
  rw [Number.isWritable, decide_eq_true_eq]

/-- So many digits are as few as that power of ten says. -/
theorem length_toDigits_le {n k : Nat} (hk : 0 < k) (h : n < Nat.pow 10 k) :
    (Nat.toDigits 10 n).length ≤ k :=
  (Nat.length_toDigits_le_iff (by decide) hk).mpr h

/-- The digits of a whole number are read as an integer with that sign. -/
theorem readMagnitude_toDigits (negative : Bool) {n : Nat} {rest : List Char}
    (hn : n < Nat.pow 10 maxIntegerDigits) (hrest : EndsNumber rest) :
    readMagnitude negative (Nat.toDigits 10 n ++ rest)
      = some (.int (if negative then -(n : Int) else n), rest) := by
  have hplaces : readPlaces rest = (none, rest) :=
    readPlaces_of_ne fun c r hc => (hrest c r hc).2.1
  have hlen : (Nat.toDigits 10 n).length ≤ maxIntegerDigits :=
    length_toDigits_le (by decide) hn
  simp only [readMagnitude, readWhole_toDigits n hrest.noDigit, Option.bind_eq_bind,
    Option.bind_some, hplaces, readExponent_of_ends hrest, Option.isNone_none, Bool.and_self,
    if_true, hlen, digitsValue_toDigits]
  rfl

theorem signed_natAbs (n : Int) :
    (if decide (n < 0) = true then -(n.natAbs : Int) else n.natAbs) = n := by
  by_cases h : n < 0
  · rw [if_pos (decide_eq_true h)]
    omega
  · rw [if_neg (by simp [h])]
    omega

/-- The text of a double is read as that double, the infinities and `NaN` included. -/
theorem readNumber_float (x : Binary64) {rest : List Char} (hrest : EndsNumber rest) :
    readNumber (x.text .design ++ rest) = some (.float x, rest) := by
  match x with
  | .nan => rfl
  | .infinite false => rfl
  | .infinite true => rfl
  | .finite s u hu =>
    rw [Binary64.text]
    by_cases h0 : u = 0
    · subst h0
      rw [if_pos rfl, readNumber_signText _ ⟨'0', _, rfl, by decide⟩]
      have hwhole : readWhole (['0', '.', '0'] ++ rest) = some (['0'], '.' :: (['0'] ++ rest)) :=
        rfl
      rw [readMagnitude_of_parts s hwhole
        (readPlaces_point (by decide) (by simp) hrest.noDigit)
        (readExponent_of_ends hrest) rfl]
      rfl
    · have hunits := Decimal.units_shortest hu
      have hdigits := Decimal.digits_ne_zero (d := Decimal.shortest u) (by rwa [hunits])
      obtain ⟨read, hread, hmagnitude⟩ := readMagnitude_text s .design hdigits hrest
      rw [if_neg h0, readNumber_signText _ (startsDigit_text _ _), hmagnitude,
        Binary64.ofDecimal_of_units s hu h0 (hread.trans hunits)]

/-- The text of a number is read as that number, be it an integer or a double. -/
theorem readNumber_text {x : Number} (hx : x.isWritable = true) {rest : List Char}
    (hrest : EndsNumber rest) : readNumber (x.text .design ++ rest) = some (x, rest) := by
  cases x with
  | int n =>
    rw [Number.text, readNumber_signText _ (startsDigit_toDigits _),
      readMagnitude_toDigits _ ((isWritable_int_iff n).mp hx) hrest, signed_natAbs]
  | float x => exact readNumber_float x hrest

/-- The digits of an integer part are digits. -/
theorem isDigit_of_readWhole {cs whole rest : List Char}
    (h : readWhole cs = some (whole, rest)) : ∀ c ∈ whole, c.isDigit = true := by
  rw [readWhole.eq_def] at h
  split at h
  · cases h
    simp
  · split at h
    · cases h
    · next hspan =>
      cases h
      exact isDigit_of_spanDigits hspan

/-- What is read as a number can be written. -/
theorem isWritable_of_readMagnitude {negative : Bool} {cs rest : List Char} {x : Number}
    (h : readMagnitude negative cs = some (x, rest)) : x.isWritable = true := by
  rw [readMagnitude, Option.bind_eq_bind, Option.bind_eq_some_iff] at h
  obtain ⟨⟨whole, after⟩, hwhole, h⟩ := h
  simp only at h
  split at h
  · split at h
    · next hlen =>
      have habs : (if negative then -(digitsValue whole : Int) else digitsValue whole).natAbs
          = digitsValue whole := by
        split <;> omega
      cases h
      rw [isWritable_int_iff, habs]
      exact digitsValue_lt_pow (isDigit_of_readWhole hwhole) hlen
    · cases h
  · cases h
    rfl

/-- What is read as a number can be written. -/
theorem isWritable_of_readNumber {cs rest : List Char} {x : Number}
    (h : readNumber cs = some (x, rest)) : x.isWritable = true := by
  rw [readNumber.eq_def] at h
  split at h
  · rw [Option.bind_eq_bind, Option.bind_eq_some_iff] at h
    obtain ⟨after, -, h⟩ := h
    cases h
    rfl
  · rw [Option.bind_eq_bind, Option.bind_eq_some_iff] at h
    obtain ⟨after, -, h⟩ := h
    cases h
    rfl
  · rw [Option.bind_eq_bind, Option.bind_eq_some_iff] at h
    obtain ⟨after, -, h⟩ := h
    cases h
    rfl
  · exact isWritable_of_readMagnitude h
  · exact isWritable_of_readMagnitude h

end LabelLayout.Json
