import LabelLayout.Geometry.Distribute
import LabelLayout.Proofs.Element.Assemble

/-!
# `LabelLayout.Proofs.Geometry.Valid`: moved elements stay valid

A shift keeps the id and derives the extent of a line anew, so a shifted element is
valid (`Element.isValid_of_shift`). Alignment and distribution do nothing but shift
the elements that they are given.
-/

set_option autoImplicit false

namespace LabelLayout

/-- The frame that two ends span spans them itself. -/
theorem Frame.spanning_spanning {frame spanned : Frame Number} {x2 y2 : Number}
    (h : frame.spanning x2 y2 = .ok spanned) :
    spanned.spanning x2 y2 = .ok spanned ∧ spanned.id = frame.id := by
  simp only [spanning, bind_eq_ok, pure_eq_ok] at h
  obtain ⟨dx, hdx, dy, hdy, rfl⟩ := h
  -- The extent follows from the place alone, which spanning leaves as it is.
  exact ⟨spanning_eq_ok.mpr ⟨⟨dx, hdx, rfl⟩, dy, hdy, rfl⟩, rfl⟩

/-- A shifted element is valid, under the id that it had. -/
theorem Element.isValid_of_shift {e shifted : Element Number} {dx dy : Number}
    (he : e.IsValid) (h : e.shift dx dy = .ok shifted) :
    shifted.IsValid ∧ shifted.id = e.id := by
  simp only [shift, bind_eq_ok] at h
  obtain ⟨x, -, y, -, h⟩ := h
  -- Only a line has ends to move with its frame.
  cases hbody : e.body with
  | line line =>
    simp only [hbody, bind_eq_ok, pure_eq_ok] at h
    obtain ⟨x2, -, y2, -, frame, hframe, rfl⟩ := h
    obtain ⟨hspans, hid⟩ := Frame.spanning_spanning hframe
    refine ⟨⟨?_, ?_⟩, hid⟩
    · rw [Element.id, hid]
      exact he.id_ne_empty
    · rintro other hother
      cases hother
      exact hspans
  | _ =>
    simp only [hbody, pure_eq_ok] at h
    rw [← h]
    exact ⟨⟨he.id_ne_empty, fun line hline => nomatch hline⟩, rfl⟩

/-- So is a moved one. -/
theorem Element.isValid_of_translate {e moved : Element Number} {dx dy : Number}
    (he : e.IsValid) (h : e.translate dx dy = .ok moved) : moved.IsValid := by
  rw [translate] at h
  split at h
  · cases h
    exact he
  · exact (isValid_of_shift he h).1

/-- And one that is shifted by values. -/
theorem Element.isValid_of_shiftBy {e shifted : Element Number} {dx dy : Datum}
    (he : e.IsValid) (h : e.shiftBy dx dy = .ok shifted) : shifted.IsValid := by
  simp only [shiftBy, bind_eq_ok] at h
  obtain ⟨x, -, h⟩ := h
  cases hy : dy.operand? with
  | some y =>
    rw [hy] at h
    exact (isValid_of_shift he h).1
  | none =>
    simp only [hy, bind_eq_ok] at h
    obtain ⟨_, -, h⟩ := h
    cases h

namespace Geometry

theorem isValid_of_slide {horizontal : Bool} {e moved : Element Number} {delta : Number}
    (he : e.IsValid) (h : slide horizontal e delta = .ok moved) : moved.IsValid := by
  rw [slide] at h
  split at h <;> exact Element.isValid_of_translate he h

variable {elements result : List (Element Number)}

/-- Aligned elements are valid. -/
theorem isValid_of_align {mode : AlignMode} (helements : ∀ e ∈ elements, e.IsValid)
    (h : align elements mode = .ok result) : ∀ e ∈ result, e.IsValid := by
  simp only [align] at h
  split at h
  · cases h
    exact helements
  · simp only [bind_eq_ok] at h
    obtain ⟨bounds, -, anchors, -, h⟩ := h
    split at h
    · cases h
      exact helements
    · obtain ⟨goal, -, h⟩ := bind_eq_ok.mp h
      intro e he
      -- Each result is the slide of one of the elements to its anchor.
      obtain ⟨⟨o, a⟩, ho, hslide⟩ := exists_of_mapM_eq_ok h e he
      obtain ⟨delta, -, hslide⟩ := bind_eq_ok.mp hslide
      exact isValid_of_slide (helements o (List.of_mem_zip ho).1) hslide

/-- Distributed elements are valid. -/
theorem isValid_of_distribute {direction : Direction} (helements : ∀ e ∈ elements, e.IsValid)
    (h : distribute elements direction = .ok result) : ∀ e ∈ result, e.IsValid := by
  simp only [distribute] at h
  split at h
  · cases h
    exact helements
  · simp only [bind_eq_ok] at h
    obtain ⟨bounds, -, segments, -, h⟩ := h
    split at h
    · obtain ⟨between, -, h⟩ := bind_eq_ok.mp h
      obtain ⟨places, -, h⟩ := bind_eq_ok.mp h
      obtain ⟨deltas, -, h⟩ := bind_eq_ok.mp h
      intro e he
      obtain ⟨⟨o, i⟩, ho, hslide⟩ := exists_of_mapM_eq_ok h e he
      -- The first and the last element are not slid.
      have hvalid := helements o (List.fst_mem_of_mem_zipIdx ho)
      simp only at hslide
      split at hslide
      · exact isValid_of_slide hvalid hslide
      · cases hslide
        exact hvalid
    · cases h
      exact helements

end Geometry

end LabelLayout
