import LabelLayout.Proofs.Except
import LabelLayout.Proofs.Json.Number
import LabelLayout.Proofs.Json.Text

/-!
# `LabelLayout.Proofs.Json.RoundTrip`: values survive the JSON text

`readChars_printAt` says that the text of a value is read as the value, provided the
value is one a text can stand for: its numbers are not too long to be written, its
objects name no member twice, and it is not nested too deep (`Readable`). How lines
break does not matter, as long as they break with blanks.

The induction is on the value, once for a value at the front of a text and once for
the rest of a list and of an object. It carries that the fuel covers the text that
is left, and that what follows a value does not go on as a number would.
-/

set_option autoImplicit false

namespace LabelLayout.Json

/-! ### Values that have a text -/

mutual

/-- A value that a text stands for, in which so many more lists and objects may be
nested. -/
def Readable (room : Nat) : Datum → Prop
  | .num x => x.isWritable = true
  | .list items => 0 < room ∧ AreReadable (room - 1) items
  | .object members =>
    0 < room ∧ (members.map Prod.fst).Nodup ∧ AreMembersReadable (room - 1) members
  | _ => True

def AreReadable (room : Nat) : List Datum → Prop
  | [] => True
  | v :: rest => Readable room v ∧ AreReadable room rest

def AreMembersReadable (room : Nat) : List (String × Datum) → Prop
  | [] => True
  | (_, v) :: rest => Readable room v ∧ AreMembersReadable room rest

end

/-- A layout that breaks lines with blanks alone. -/
def Layout.IsBlank (layout : Layout) : Prop :=
  ∀ depth, ∀ c ∈ layout.lineBreak depth, isSpace c = true

theorem Layout.isBlank_indented : Layout.indented.IsBlank := by
  intro depth c hc
  rcases List.mem_cons.mp hc with rfl | hc
  · decide
  · rw [List.eq_of_mem_replicate hc]
    decide

/-! ### Blanks -/

/-- Blanks are skipped up to something else. -/
theorem skipSpace_append {blank cs : List Char} (hblank : ∀ c ∈ blank, isSpace c = true)
    (hcs : ∀ c rest, cs = c :: rest → isSpace c = false) : skipSpace (blank ++ cs) = cs := by
  rw [skipSpace, List.dropWhile_append_of_pos hblank]
  cases cs with
  | nil => rfl
  | cons c cs => rw [List.dropWhile_cons, hcs c cs rfl, if_neg (by decide)]

theorem skipSpace_cons {c : Char} (h : isSpace c = false) (cs : List Char) :
    skipSpace (c :: cs) = c :: cs := by
  rw [skipSpace, List.dropWhile_cons, h, if_neg (by decide)]

/-- No blank goes on as a number would. -/
theorem endsNumber_of_isSpace {c : Char} (h : isSpace c = true) (cs : List Char) :
    EndsNumber (c :: cs) := by
  intro d rest hd
  cases hd
  simp only [isSpace, Bool.or_eq_true, beq_iff_eq] at h
  rcases h with ((rfl | rfl) | rfl) | rfl <;> decide

theorem endsNumber_append {blank cs : List Char} (hblank : ∀ c ∈ blank, isSpace c = true)
    (hcs : EndsNumber cs) : EndsNumber (blank ++ cs) := by
  cases blank with
  | nil => exact hcs
  | cons c blank => exact endsNumber_of_isSpace (hblank c List.mem_cons_self) _

/-- A sign between the parts of a list or an object. -/
theorem endsNumber_cons {c : Char} (h : c ∈ [',', ']', '\x7d']) (cs : List Char) :
    EndsNumber (c :: cs) := by
  intro d rest hd
  cases hd
  simp only [List.mem_cons, List.not_mem_nil, or_false] at h
  rcases h with rfl | rfl | rfl <;> decide

/-! ### Members by name -/

/-- A new name goes to the end. -/
theorem putMember_of_notMem {name : String} {members : List (String × Datum)} (v : Datum)
    (h : name ∉ members.map Prod.fst) : putMember name v members = members ++ [(name, v)] := by
  induction members with
  | nil => rfl
  | cons member rest ih =>
    obtain ⟨other, w⟩ := member
    simp only [List.map_cons, List.mem_cons, not_or] at h
    rw [putMember, if_neg (Ne.symm h.1), ih h.2, List.cons_append]

/-- Members with different names stay as they are. -/
theorem mergeMembers_of_nodup {members : List (String × Datum)}
    (h : (members.map Prod.fst).Nodup) : mergeMembers members = members := by
  -- The fold starts anywhere: what is merged already stays in front of what is to come.
  have general : ∀ (merged : List (String × Datum)) (rest : List (String × Datum)),
      ((merged ++ rest).map Prod.fst).Nodup →
      rest.foldl (fun merged m => putMember m.1 m.2 merged) merged = merged ++ rest := by
    intro merged rest
    induction rest generalizing merged with
    | nil =>
      intro _
      exact (List.append_nil merged).symm
    | cons member rest ih =>
      obtain ⟨name, v⟩ := member
      intro hnodup
      have hnew : name ∉ merged.map Prod.fst := by
        rw [List.map_append, List.map_cons, List.nodup_append] at hnodup
        intro hmem
        exact hnodup.2.2 name hmem name List.mem_cons_self rfl
      have happend : merged ++ [(name, v)] ++ rest = merged ++ (name, v) :: rest := by
        rw [List.append_assoc, List.singleton_append]
      rw [List.foldl_cons]
      show rest.foldl _ (putMember name v merged) = _
      rw [putMember_of_notMem v hnew, ih _ (by rwa [happend]), happend]
  exact general [] members h

/-! ### Where a value starts -/

/-- The first character of the text of a value is neither a blank nor a bracket that
closes. -/
def StartsValue (cs : List Char) : Prop :=
  ∃ c rest, cs = c :: rest ∧ isSpace c = false ∧ c ≠ ']'

/-- The text of a number starts as no other value does. -/
theorem text_eq_cons (x : Number) : ∃ c cs, x.text .design = c :: cs ∧
    (c.isDigit = true ∨ c = '-' ∨ c = 'N' ∨ c = 'I') := by
  have signed : ∀ (s : Bool) {cs : List Char}, StartsDigit cs →
      ∃ c ds, Binary64.signText s cs = c :: ds ∧
        (c.isDigit = true ∨ c = '-' ∨ c = 'N' ∨ c = 'I') := by
    rintro s - ⟨c, cs, rfl, hc⟩
    cases s with
    | false => exact ⟨c, cs, rfl, .inl hc⟩
    | true => exact ⟨'-', c :: cs, rfl, .inr (.inl rfl)⟩
  match x with
  | .int n => exact signed _ (startsDigit_toDigits _)
  | .float .nan => exact ⟨'N', _, rfl, by decide⟩
  | .float (.infinite false) => exact ⟨'I', _, rfl, by decide⟩
  | .float (.infinite true) => exact ⟨'-', _, rfl, by decide⟩
  | .float (.finite s u hu) =>
    rw [Number.text, Binary64.text]
    split
    · exact signed s ⟨'0', _, rfl, by decide⟩
    · exact signed s (startsDigit_text _ _)

/-- The text of a value starts with neither. -/
theorem startsValue_printAt (layout : Layout) (depth : Nat) (v : Datum) :
    StartsValue (printAt layout depth v) := by
  match v with
  | .null => exact ⟨'n', _, rfl, by decide⟩
  | .bool true => exact ⟨'t', _, rfl, by decide⟩
  | .bool false => exact ⟨'f', _, rfl, by decide⟩
  | .num x =>
    obtain ⟨c, cs, hcs, hc⟩ := text_eq_cons x
    refine ⟨c, cs, hcs, ?_⟩
    rcases hc with hc | rfl | rfl | rfl
    -- A digit is no blank, because blanks end numbers and digits do not.
    · refine ⟨?_, by rintro rfl; exact absurd hc (by decide)⟩
      refine Bool.eq_false_iff.mpr fun hspace => ?_
      exact absurd ((endsNumber_of_isSpace hspace [] c [] rfl).1.symm.trans hc) (by decide)
    all_goals decide
  | .str text => exact ⟨'"', _, rfl, by decide⟩
  | .list [] => exact ⟨'[', _, rfl, by decide⟩
  | .list (v :: rest) => exact ⟨'[', _, rfl, by decide⟩
  | .object [] => exact ⟨'\x7b', _, rfl, by decide⟩
  | .object ((name, v) :: rest) => exact ⟨'\x7b', _, rfl, by decide⟩

theorem StartsValue.append {cs : List Char} (h : StartsValue cs) (rest : List Char) :
    StartsValue (cs ++ rest) := by
  obtain ⟨c, cs, rfl, hc⟩ := h
  exact ⟨c, cs ++ rest, rfl, hc⟩

theorem StartsValue.skipSpace_append {blank cs : List Char}
    (hblank : ∀ c ∈ blank, isSpace c = true) (h : StartsValue cs) :
    skipSpace (blank ++ cs) = cs := by
  obtain ⟨c, cs, rfl, hc, -⟩ := h
  refine Json.skipSpace_append hblank ?_
  intro d rest hd
  cases hd
  exact hc

/-! ### The round trip -/

theorem readValue_num (room fuel : Nat) {x : Number} (hx : x.isWritable = true)
    {rest : List Char} (hrest : EndsNumber rest) :
    readValue room (fuel + 1) (x.text .design ++ rest) = .ok (.num x, rest) := by
  have hread := readNumber_text hx hrest
  obtain ⟨c, cs, hcs, hc⟩ := text_eq_cons x
  rw [hcs] at hread ⊢
  -- The reader tries every other kind of value first, by its first character.
  have hne : ∀ d ∈ ['"', '[', '\x7b', 'n', 't', 'f'], c ≠ d := by
    rintro d hd rfl
    rcases hc with hc | rfl | rfl | rfl
    · simp only [List.mem_cons, List.not_mem_nil, or_false] at hd
      rcases hd with rfl | rfl | rfl | rfl | rfl | rfl <;> exact absurd hc (by decide)
    all_goals exact absurd hd (by decide)
  rw [readValue.eq_def]
  simp only [List.cons_append] at hread ⊢
  split
  · next h => exact absurd (List.cons.inj h).1 (hne _ (by decide))
  · next h => exact absurd (List.cons.inj h).1 (hne _ (by decide))
  · next h => exact absurd (List.cons.inj h).1 (hne _ (by decide))
  · next h => exact absurd (List.cons.inj h).1 (hne _ (by decide))
  · next h => exact absurd (List.cons.inj h).1 (hne _ (by decide))
  · next h => exact absurd (List.cons.inj h).1 (hne _ (by decide))
  · rw [hread]
    rfl

theorem printText_append (text rest : List Char) :
    printText text ++ rest = '"' :: (text.flatMap escapeChar ++ '"' :: rest) := by
  rw [printText, List.append_assoc, List.cons_append, List.singleton_append]

theorem readValue_str (room fuel : Nat) (text : String) (rest : List Char) :
    readValue room (fuel + 1) (printText text.toList ++ rest) = .ok (.str text, rest) := by
  rw [printText_append, readValue, readText_escaped]
  rfl

variable {layout : Layout}

/-- What follows an item does not go on as a number would. -/
theorem endsNumber_items (hlayout : layout.IsBlank) (depth inner : Nat) (items : List Datum)
    (rest : List Char) :
    EndsNumber (printItems layout inner items ++ (layout.lineBreak depth ++ ']' :: rest)) := by
  have hclose : EndsNumber (layout.lineBreak depth ++ ']' :: rest) :=
    endsNumber_append (hlayout depth) (endsNumber_cons (by decide) rest)
  cases items with
  | nil => exact hclose
  | cons v items =>
    rw [printItems, List.append_assoc, List.append_assoc]
    exact endsNumber_cons (by decide) _

/-- What follows a member does not go on as a number would. -/
theorem endsNumber_members (hlayout : layout.IsBlank) (depth inner : Nat)
    (members : List (String × Datum)) (rest : List Char) :
    EndsNumber
      (printMembers layout inner members ++ (layout.lineBreak depth ++ '\x7d' :: rest)) := by
  have hclose : EndsNumber (layout.lineBreak depth ++ '\x7d' :: rest) :=
    endsNumber_append (hlayout depth) (endsNumber_cons (by decide) rest)
  cases members with
  | nil => exact hclose
  | cons member members =>
    rw [printMembers, List.append_assoc, List.append_assoc]
    exact endsNumber_cons (by decide) _

/-- A list with items is read through its items. -/
theorem readValue_list {room fuel : Nat} {cs rest : List Char} {items : List Datum}
    {blank : List Char} (hblank : ∀ c ∈ blank, isSpace c = true) (hroom : 0 < room)
    (hcs : StartsValue cs) (hitems : readItems (room - 1) fuel cs = .ok (items, rest)) :
    readValue room (fuel + 1) ('[' :: (blank ++ cs)) = .ok (.list items, rest) := by
  have hskip := hcs.skipSpace_append hblank
  obtain ⟨c, tail, rfl, -, hc⟩ := hcs
  rw [readValue, if_neg (Nat.ne_of_gt hroom), hskip]
  split
  · next h => exact absurd (List.cons.inj h).1 hc
  · rw [hitems]
    rfl

/-- An object with members is read through its members. -/
theorem readValue_object {room fuel : Nat} {cs rest : List Char}
    {members : List (String × Datum)} {blank : List Char}
    (hblank : ∀ c ∈ blank, isSpace c = true) (hroom : 0 < room)
    (hmembers : readMembers (room - 1) fuel ('"' :: cs) = .ok (members, rest)) :
    readValue room (fuel + 1) ('\x7b' :: (blank ++ '"' :: cs))
      = .ok (.object (mergeMembers members), rest) := by
  have hskip : skipSpace (blank ++ '"' :: cs) = '"' :: cs := by
    refine skipSpace_append hblank fun c tail h => ?_
    cases h
    decide
  rw [readValue, if_neg (Nat.ne_of_gt hroom), hskip]
  split
  · next h => exact absurd (List.cons.inj h).1 (by decide)
  · rw [hmembers]
    rfl

section

variable {room fuel : Nat} {cs after tail rest : List Char} {v : Datum}

theorem readItems_last (hread : readValue room fuel cs = .ok (v, after))
    (hafter : skipSpace after = ']' :: rest) :
    readItems room (fuel + 1) cs = .ok ([v], rest) := by
  rw [readItems, hread, ok_bind]
  simp only [hafter]
  rfl

theorem readItems_next {items : List Datum} (hread : readValue room fuel cs = .ok (v, after))
    (hafter : skipSpace after = ',' :: tail)
    (htail : readItems room fuel (skipSpace tail) = .ok (items, rest)) :
    readItems room (fuel + 1) cs = .ok (v :: items, rest) := by
  rw [readItems, hread, ok_bind]
  simp only [hafter, htail]
  rfl

variable {name : String}

/-- A name and its value, whatever follows them. -/
theorem readMembers_name (hread : readValue room fuel cs = .ok (v, after))
    (hcs : StartsValue cs) :
    readMembers room (fuel + 1) (printText name.toList ++ ':' :: ' ' :: cs)
      = match skipSpace after with
        | '\x7d' :: rest => .ok ([(name, v)], rest)
        | ',' :: rest => do
          let (members, rest) ← readMembers room fuel (skipSpace rest)
          return ((name, v) :: members, rest)
        | _ => .error .malformed := by
  have hskip : skipSpace (' ' :: cs) = cs :=
    hcs.skipSpace_append (by simp [isSpace] : ∀ c ∈ [' '], isSpace c = true)
  rw [printText_append, readMembers, readText_escaped, expect, ok_bind]
  simp only [skipSpace_cons (c := ':') (by decide), hskip, hread]
  rfl

end

-- Each call of the reader spends one unit of fuel, so the recursion is on the fuel. A
-- value needs as much as its text is long, and its items one more for themselves.
mutual

/-- The text of a value at the front of a text is read as the value. -/
theorem readValue_printAt (hlayout : layout.IsBlank) :
    ∀ (v : Datum) {room fuel : Nat} (depth : Nat) (rest : List Char), Readable room v →
      EndsNumber rest → (printAt layout depth v).length ≤ fuel →
      readValue room fuel (printAt layout depth v ++ rest) = .ok (v, rest)
  | v, _, 0, depth, _, _, _, hfuel => by
    -- No text of a value is empty, so there is fuel.
    obtain ⟨c, cs, hcs, -⟩ := startsValue_printAt layout depth v
    rw [hcs] at hfuel
    exact absurd hfuel (Nat.not_succ_le_zero _)
  | .null, _, _ + 1, _, _, _, _, _ => rfl
  | .bool true, _, _ + 1, _, _, _, _, _ => rfl
  | .bool false, _, _ + 1, _, _, _, _, _ => rfl
  | .num x, room, fuel + 1, _, _, hv, hrest, _ => readValue_num room fuel hv hrest
  | .str text, room, fuel + 1, _, rest, _, _, _ => readValue_str room fuel text rest
  | .list [], room, fuel + 1, _, rest, hv, _, _ => by
    show readValue room (fuel + 1) ('[' :: ']' :: rest) = _
    rw [readValue, if_neg (Nat.ne_of_gt hv.1)]
    rfl
  | .object [], room, fuel + 1, _, rest, hv, _, _ => by
    show readValue room (fuel + 1) ('\x7b' :: '\x7d' :: rest) = _
    rw [readValue, if_neg (Nat.ne_of_gt hv.1)]
    rfl
  | .list (v :: items), room, fuel + 1, depth, rest, hv, _, hfuel => by
    obtain ⟨hroom, hv, hitems⟩ := hv
    simp only [printAt, List.cons_append, List.append_assoc, List.nil_append,
      List.length_cons, List.length_append] at hfuel ⊢
    refine readValue_list (hlayout (depth + 1)) hroom
      ((startsValue_printAt layout (depth + 1) v).append _) ?_
    exact readItems_printItems hlayout v items depth (depth + 1) rest hv hitems (by omega)
  | .object ((name, v) :: members), room, fuel + 1, depth, rest, hv, _, hfuel => by
    obtain ⟨hroom, hnodup, hv, hmembers⟩ := hv
    simp only [printAt, List.cons_append, List.append_assoc, List.nil_append,
      List.length_cons, List.length_append] at hfuel ⊢
    have hlength : (printText name.toList).length + (printAt layout (depth + 1) v).length +
        (printMembers layout (depth + 1) members).length < fuel := by omega
    have hread := readMembers_printMembers hlayout name v members depth (depth + 1) rest hv
      hmembers hlength
    rw [printText_append] at hread ⊢
    rw [readValue_object (hlayout (depth + 1)) hroom hread, mergeMembers_of_nodup hnodup]
termination_by structural _ _ fuel => fuel

/-- The items of a list are read up to its closing bracket. -/
theorem readItems_printItems (hlayout : layout.IsBlank) :
    ∀ (v : Datum) (items : List Datum) {room fuel : Nat} (depth inner : Nat)
      (rest : List Char), Readable room v → AreReadable room items →
      (printAt layout inner v).length + (printItems layout inner items).length < fuel →
      readItems room fuel (printAt layout inner v ++
          (printItems layout inner items ++ (layout.lineBreak depth ++ ']' :: rest)))
        = .ok (v :: items, rest)
  | _, _, _, 0, _, _, _, _, _, hfuel => absurd hfuel (Nat.not_lt_zero _)
  | v, [], room, fuel + 1, depth, inner, rest, hv, _, hfuel => by
    have hlength : (printAt layout inner v).length ≤ fuel := by omega
    have hread := readValue_printAt hlayout v inner _ hv
      (endsNumber_items hlayout depth inner [] rest) hlength
    refine readItems_last hread (skipSpace_append (hlayout depth) fun c tail h => ?_)
    cases h
    decide
  | v, w :: items, room, fuel + 1, depth, inner, rest, hv, hitems, hfuel => by
    simp only [printItems, List.cons_append, List.append_assoc, List.length_cons,
      List.length_append] at hfuel ⊢
    have hlength : (printAt layout inner v).length ≤ fuel := by omega
    have hread := readValue_printAt hlayout v inner _ hv
      (endsNumber_items hlayout depth inner (w :: items) rest) hlength
    have hlengths : (printAt layout inner w).length + (printItems layout inner items).length
        < fuel := by omega
    have htail := readItems_printItems hlayout w items depth inner rest hitems.1 hitems.2
      hlengths
    -- Behind the comma the reader passes over the line break in front of the next item.
    simp only [printItems, List.cons_append, List.append_assoc] at hread
    refine readItems_next hread (skipSpace_cons (by decide) _) ?_
    rw [((startsValue_printAt layout inner w).append _).skipSpace_append (hlayout inner)]
    exact htail
termination_by structural _ _ _ fuel => fuel

/-- The members of an object are read up to its closing bracket. -/
theorem readMembers_printMembers (hlayout : layout.IsBlank) :
    ∀ (name : String) (v : Datum) (members : List (String × Datum)) {room fuel : Nat}
      (depth inner : Nat) (rest : List Char), Readable room v → AreMembersReadable room members →
      (printText name.toList).length + (printAt layout inner v).length +
        (printMembers layout inner members).length < fuel →
      readMembers room fuel (printText name.toList ++ ':' :: ' ' :: (printAt layout inner v ++
          (printMembers layout inner members ++ (layout.lineBreak depth ++ '\x7d' :: rest))))
        = .ok ((name, v) :: members, rest)
  | _, _, _, _, 0, _, _, _, _, _, hfuel => absurd hfuel (Nat.not_lt_zero _)
  | name, v, [], room, fuel + 1, depth, inner, rest, hv, _, hfuel => by
    have hlength : (printAt layout inner v).length ≤ fuel := by omega
    have hread := readValue_printAt hlayout v inner _ hv
      (endsNumber_members hlayout depth inner [] rest) hlength
    have hskip : skipSpace (layout.lineBreak depth ++ '\x7d' :: rest) = '\x7d' :: rest := by
      refine skipSpace_append (hlayout depth) fun c tail h => ?_
      cases h
      decide
    rw [readMembers_name hread ((startsValue_printAt layout inner v).append _)]
    simp only [printMembers, List.nil_append, hskip]
  | name, v, (other, w) :: members, room, fuel + 1, depth, inner, rest, hv, hmembers, hfuel => by
    have hlength : (printAt layout inner v).length ≤ fuel := by omega
    have hread := readValue_printAt hlayout v inner _ hv
      (endsNumber_members hlayout depth inner ((other, w) :: members) rest) hlength
    simp only [printMembers, List.cons_append, List.length_cons, List.length_append] at hfuel
    have hlengths : (printText other.toList).length + (printAt layout inner w).length +
        (printMembers layout inner members).length < fuel := by omega
    have htail := readMembers_printMembers hlayout other w members depth inner rest hmembers.1
      hmembers.2 hlengths
    -- The next name starts with a quote, so the line break in front of it is passed over.
    have hnext : StartsValue (printText other.toList) := ⟨'"', _, rfl, by decide⟩
    rw [readMembers_name hread ((startsValue_printAt layout inner v).append _)]
    simp only [printMembers, List.cons_append, List.append_assoc,
      skipSpace_cons (c := ',') (by decide)]
    rw [(hnext.append _).skipSpace_append (hlayout inner), htail, ok_bind]
    rfl
termination_by structural _ _ _ _ fuel => fuel

end

/-- The text of a value is read as the value. -/
theorem readChars_printAt (hlayout : layout.IsBlank) {v : Datum} (hv : Readable maxDepth v) :
    readChars (printAt layout 0 v) = .ok v := by
  -- Nothing stands in front of the value, and nothing is left behind it.
  have hskip : skipSpace (printAt layout 0 v) = printAt layout 0 v :=
    (startsValue_printAt layout 0 v).skipSpace_append
      (List.forall_mem_nil fun c => isSpace c = true)
  have hread := readValue_printAt hlayout v 0 [] hv (fun _ _ h => absurd h (by simp))
    (Nat.le_succ (printAt layout 0 v).length)
  rw [List.append_nil] at hread
  rw [readChars, hskip, hread, ok_bind]
  rfl

/-- The text of a value is read as the value. -/
theorem read_print (hlayout : layout.IsBlank) {v : Datum} (hv : Readable maxDepth v) :
    read (print layout v) = .ok v := by
  rw [read, print, String.toList_ofList, readChars_printAt hlayout hv]

/-! ### Values that can be written -/

mutual

/-- What can be read back can be written. -/
theorem isWritable_of_readable : ∀ (v : Datum) {room : Nat}, Readable room v →
    isWritable v = true
  | .null, _, _ => rfl
  | .bool _, _, _ => rfl
  | .str _, _, _ => rfl
  | .num _, _, h => h
  | .list items, _, h => areWritable_of_readable items h.2
  | .object members, _, h => areMembersWritable_of_readable members h.2.2

theorem areWritable_of_readable : ∀ (items : List Datum) {room : Nat}, AreReadable room items →
    areWritable items = true
  | [], _, _ => rfl
  | v :: rest, _, h => by
    rw [areWritable, isWritable_of_readable v h.1, areWritable_of_readable rest h.2]
    rfl

theorem areMembersWritable_of_readable : ∀ (members : List (String × Datum)) {room : Nat},
    AreMembersReadable room members → areMembersWritable members = true
  | [], _, _ => rfl
  | (_, v) :: rest, _, h => by
    rw [areMembersWritable, isWritable_of_readable v h.1, areMembersWritable_of_readable rest h.2]
    rfl

end

/-- A value that can be read back is written, and its text is read as the value. -/
theorem read_write (hlayout : layout.IsBlank) {v : Datum} (hv : Readable maxDepth v) :
    ∃ text, write layout v = .ok text ∧ read text = .ok v :=
  ⟨print layout v, if_pos (isWritable_of_readable v hv), read_print hlayout hv⟩

end LabelLayout.Json
