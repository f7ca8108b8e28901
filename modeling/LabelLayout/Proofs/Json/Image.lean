import LabelLayout.Proofs.Json.RoundTrip

/-!
# `LabelLayout.Proofs.Json.Image`: what a text can stand for

Whatever is read is `Readable`: its numbers are not too long to be written again, its
objects name no member twice, and it is not nested deeper than the reader goes
(`readable_of_read`). So a value that was read once is read from its own text
(`read_print_of_read`).
-/

set_option autoImplicit false

namespace LabelLayout.Json

/-! ### Members by name -/

/-- A member that is put takes the place of its name, or the last place. -/
theorem map_fst_putMember (name : String) (v : Datum) (members : List (String × Datum)) :
    (putMember name v members).map Prod.fst
      = if name ∈ members.map Prod.fst then members.map Prod.fst
        else members.map Prod.fst ++ [name] := by
  induction members with
  | nil => rfl
  | cons member rest ih =>
    obtain ⟨other, w⟩ := member
    rw [putMember]
    by_cases hname : other = name
    · rw [if_pos hname, if_pos (by simp [hname]), hname]
      rfl
    · rw [if_neg hname, List.map_cons, ih, List.map_cons]
      by_cases hmem : name ∈ rest.map Prod.fst
      · rw [if_pos hmem, if_pos (List.mem_cons_of_mem _ hmem)]
      · rw [if_neg hmem, if_neg (by simp [hmem, Ne.symm hname]), List.cons_append]

/-- Putting a member keeps the names different. -/
theorem nodup_putMember (name : String) (v : Datum) {members : List (String × Datum)}
    (h : (members.map Prod.fst).Nodup) : ((putMember name v members).map Prod.fst).Nodup := by
  rw [map_fst_putMember]
  split
  · exact h
  · next hnew =>
    rw [List.nodup_append]
    refine ⟨h, by simp, ?_⟩
    rintro a ha b hb rfl
    rw [List.mem_singleton.mp hb] at ha
    exact hnew ha

/-- Putting a member keeps the values readable. -/
theorem areMembersReadable_putMember {room : Nat} (name : String) {v : Datum}
    {members : List (String × Datum)} (hv : Readable room v)
    (h : AreMembersReadable room members) :
    AreMembersReadable room (putMember name v members) := by
  induction members with
  | nil => exact ⟨hv, trivial⟩
  | cons member rest ih =>
    obtain ⟨other, w⟩ := member
    rw [putMember]
    split
    · exact ⟨hv, h.2⟩
    · exact ⟨h.1, ih h.2⟩

/-- Merged members have different names and the values that they had. -/
theorem mergeMembers_spec {room : Nat} {members : List (String × Datum)}
    (h : AreMembersReadable room members) :
    ((mergeMembers members).map Prod.fst).Nodup ∧
      AreMembersReadable room (mergeMembers members) := by
  -- Each member that is put keeps both, whatever was merged before it.
  have general : ∀ (rest merged : List (String × Datum)), AreMembersReadable room rest →
      (merged.map Prod.fst).Nodup → AreMembersReadable room merged →
      let all := rest.foldl (fun merged m => putMember m.1 m.2 merged) merged
      (all.map Prod.fst).Nodup ∧ AreMembersReadable room all := by
    intro rest
    induction rest with
    | nil => exact fun merged _ hnodup hmerged => ⟨hnodup, hmerged⟩
    | cons member rest ih =>
      intro merged hrest hnodup hmerged
      exact ih _ hrest.2 (nodup_putMember member.1 member.2 hnodup)
        (areMembersReadable_putMember member.1 hrest.1 hmerged)
  exact general members [] h List.nodup_nil trivial

/-! ### What is read -/

theorem expect_eq_ok {β : Type} {x : Option β} {b : β} (h : expect x = .ok b) : x = some b := by
  cases x with
  | none => cases h
  | some a =>
    cases h
    rfl

/-- A list or an object is read only where there is room. -/
theorem room_of_ok {β : Type} {room : Nat} {x : Except Failure β} {b : β}
    (h : (if room = 0 then .error .tooDeep else x) = Except.ok b) : 0 < room ∧ x = .ok b := by
  split at h
  · cases h
  · next hroom => exact ⟨Nat.pos_of_ne_zero hroom, h⟩

-- The recursion is on the fuel, as that of the readers is. Each case peels the steps of
-- its reader off and takes the rooms and the values that they leave.
mutual

/-- A value that is read is readable. -/
theorem readable_of_readValue : ∀ {room fuel : Nat} {cs rest : List Char} {v : Datum},
    readValue room fuel cs = .ok (v, rest) → Readable room v
  | _, 0, _, _, _, h => by cases h
  | room, fuel + 1, cs, rest, v, h => by
    rw [readValue.eq_def] at h
    simp only at h
    split at h
    · obtain ⟨p, -, h⟩ := bind_eq_ok.mp h
      cases h
      trivial
    · obtain ⟨hroom, h⟩ := room_of_ok h
      split at h
      · cases h
        exact ⟨hroom, trivial⟩
      · obtain ⟨⟨items, after⟩, hitems, h⟩ := bind_eq_ok.mp h
        cases h
        exact ⟨hroom, areReadable_of_readItems hitems⟩
    · obtain ⟨hroom, h⟩ := room_of_ok h
      split at h
      · cases h
        exact ⟨hroom, List.nodup_nil, trivial⟩
      · obtain ⟨⟨members, after⟩, hmembers, h⟩ := bind_eq_ok.mp h
        cases h
        -- Repeated names are merged, so the names of an object that was read differ.
        exact ⟨hroom, mergeMembers_spec (areMembersReadable_of_readMembers hmembers)⟩
    · obtain ⟨after, -, h⟩ := bind_eq_ok.mp h
      cases h
      trivial
    · obtain ⟨after, -, h⟩ := bind_eq_ok.mp h
      cases h
      trivial
    · obtain ⟨after, -, h⟩ := bind_eq_ok.mp h
      cases h
      trivial
    · obtain ⟨⟨x, after⟩, hx, h⟩ := bind_eq_ok.mp h
      cases h
      exact isWritable_of_readNumber (expect_eq_ok hx)
termination_by structural _ fuel => fuel

theorem areReadable_of_readItems : ∀ {room fuel : Nat} {cs rest : List Char}
    {items : List Datum}, readItems room fuel cs = .ok (items, rest) → AreReadable room items
  | _, 0, _, _, _, h => by cases h
  | room, fuel + 1, cs, rest, items, h => by
    rw [readItems] at h
    obtain ⟨⟨v, after⟩, hv, h⟩ := bind_eq_ok.mp h
    have hread := readable_of_readValue hv
    simp only at h
    split at h
    · cases h
      exact ⟨hread, trivial⟩
    · obtain ⟨⟨tail, last⟩, htail, h⟩ := bind_eq_ok.mp h
      cases h
      exact ⟨hread, areReadable_of_readItems htail⟩
    · cases h
termination_by structural _ fuel => fuel

theorem areMembersReadable_of_readMembers : ∀ {room fuel : Nat} {cs rest : List Char}
    {members : List (String × Datum)}, readMembers room fuel cs = .ok (members, rest) →
    AreMembersReadable room members
  | _, 0, _, _, _, h => by cases h
  | room, fuel + 1, cs, rest, members, h => by
    rw [readMembers.eq_def] at h
    simp only at h
    split at h
    · obtain ⟨⟨name, after⟩, -, h⟩ := bind_eq_ok.mp h
      simp only at h
      split at h
      · obtain ⟨⟨v, after⟩, hv, h⟩ := bind_eq_ok.mp h
        have hread := readable_of_readValue hv
        simp only at h
        split at h
        · cases h
          exact ⟨hread, trivial⟩
        · obtain ⟨⟨tail, last⟩, htail, h⟩ := bind_eq_ok.mp h
          cases h
          exact ⟨hread, areMembersReadable_of_readMembers htail⟩
        · cases h
      · cases h
    · cases h
termination_by structural _ fuel => fuel

end

/-- What a whole text is read as is readable. -/
theorem readable_of_readChars {cs : List Char} {v : Datum} (h : readChars cs = .ok v) :
    Readable maxDepth v := by
  obtain ⟨⟨w, rest⟩, hw, h⟩ := bind_eq_ok.mp h
  have hread := readable_of_readValue hw
  simp only at h
  split at h
  · cases h
    exact hread
  · cases h

/-- What a text is read as is what its own text is read as. -/
theorem read_print_of_read {layout : Layout} (hlayout : layout.IsBlank) {text : String}
    {v : Datum} (h : read text = .ok v) : read (print layout v) = .ok v :=
  read_print hlayout (readable_of_readChars h)

end LabelLayout.Json
