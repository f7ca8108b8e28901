import LabelLayout.Barcode.Qr.Encoder
import LabelLayout.Proofs.Barcode.Sizing
import Mathlib.Data.List.GetD
import Mathlib.Tactic.SplitIfs

/-!
# `LabelLayout.Proofs.Barcode.Encoder`: the sizes that the encoder goes by

`encoderSizing` is what the encoder measures, and `isDocumented_encoderSizing` says that the
encoder makes its codes by it. Length fields get wider from one band of versions to the next and
nowhere else, so a search that starts again has reached a later band, and as many searches as
there are bands are enough (`ends_fitFrom`).

What the encoder cannot work with is a version with a blank block (`build_of_fitVersion`).
-/

set_option autoImplicit false

namespace LabelLayout.Barcode.Qr

/-! ### Measures -/

/-- The bits of data that a version of a level has room for. -/
def capacity (level : CorrectionLevel) (version : Nat) : Nat :=
  (capacities level).getD (version - 1) 0

/-- What the encoder measures. -/
def encoderSizing : Sizing where
  lengthBits version (part : Segment) := (Band.ofVersion version).lengthBits part.mode
  payloadBits := Segment.payloadBits
  capacity := capacity

theorem bitsNeeded_encoderSizing (version : Nat) (parts : List Segment) :
    encoderSizing.bitsNeeded version parts = bitsNeeded (Band.ofVersion version) parts := by
  induction parts with
  | nil => rfl
  | cons part rest ih =>
    rw [bitsNeeded, ← ih]
    rfl

/-- The place of a band among the bands. -/
def Band.index : Band → Nat
  | .small => 0
  | .middle => 1
  | .large => 2

theorem Band.index_mono {v w : Nat} (h : v ≤ w) :
    (Band.ofVersion v).index ≤ (Band.ofVersion w).index := by
  simp only [Band.ofVersion]
  split_ifs <;> first | decide | omega

theorem Band.index_injective {a b : Band} (h : a.index = b.index) : a = b := by
  cases a <;> cases b <;> first | rfl | cases h

/-- Length fields grow from band to band. -/
theorem Band.lengthBits_mono {a b : Band} (h : a.index ≤ b.index) (mode : Mode) :
    a.lengthBits mode ≤ b.lengthBits mode := by
  cases a <;> cases b <;> cases mode <;> first | decide | exact absurd h (by decide)

/-- No two bands have the same fields for digits. -/
theorem Band.eq_of_lengthBits {a b : Band} (h : a.lengthBits .numeric = b.lengthBits .numeric) :
    a = b := by
  cases a <;> cases b <;> first | rfl | cases h

/-- Versions have the same length fields if they lie in one band. -/
theorem lengthBits_encoderSizing_inj {v w : Nat} :
    encoderSizing.lengthBits v = encoderSizing.lengthBits w ↔
      Band.ofVersion v = Band.ofVersion w := by
  refine ⟨fun h => Band.eq_of_lengthBits (congrFun h ⟨.numeric, []⟩), fun h => ?_⟩
  simp only [encoderSizing, h]

theorem length_capacities (level : CorrectionLevel) : (capacities level).length = 40 := by
  cases level <;> rfl

/-- A stronger level has no more room in any version. -/
theorem capacity_anti {level stronger : CorrectionLevel} (h : strength level ≤ strength stronger)
    {version : Nat} (hversion : version ≤ 40) :
    capacity stronger version ≤ capacity level version := by
  have hall : ∀ i < 40, (capacities stronger).getD i 0 ≤ (capacities level).getD i 0 := by
    cases level <;> cases stronger <;> first | decide +kernel | exact absurd h (by decide)
  exact hall _ (by omega)

/-! ### The search -/

section

variable {level : CorrectionLevel} {parts : List Segment} {bits start v w : Nat}

theorem getElem_capacities (hstart : 1 ≤ start) {i : Nat}
    (hi : i < ((capacities level).drop (start - 1)).length) :
    ((capacities level).drop (start - 1))[i] = capacity level (start + i) := by
  rw [List.length_drop] at hi
  rw [List.getElem_drop, capacity, show start + i - 1 = start - 1 + i by omega,
    List.getD_eq_getElem _ _ (by omega)]

/-- What is found is the first version with room. -/
theorem isFirst_of_leastVersion? (hstart : 1 ≤ start)
    (h : leastVersion? level bits start = some v) : encoderSizing.IsFirst level bits start v := by
  obtain ⟨i, hfind, rfl⟩ := Option.map_eq_some_iff.mp h
  obtain ⟨hi, hroom, hbefore⟩ := List.findIdx?_eq_some_iff_getElem.mp hfind
  rw [getElem_capacities hstart, decide_eq_true_eq] at hroom
  have hlength := hi
  rw [List.length_drop, length_capacities] at hlength
  refine ⟨⟨Nat.le_add_right start i, by omega, hroom⟩, fun w ⟨hw, _, hwroom⟩ => ?_⟩
  refine Nat.le_of_not_lt fun hlt => ?_
  have hnot := hbefore (w - start) (by omega)
  rw [getElem_capacities hstart, decide_eq_true_eq, Nat.add_sub_cancel' hw] at hnot
  exact hnot hwroom

/-- Where nothing is found no version has room. -/
theorem lt_of_leastVersion?_eq_none (hstart : 1 ≤ start)
    (h : leastVersion? level bits start = none) (hw : start ≤ w) (hforty : w ≤ 40) :
    capacity level w < bits := by
  have hnone := List.findIdx?_eq_none_iff.mp (Option.map_eq_none_iff.mp h)
  have hlength : w - start < ((capacities level).drop (start - 1)).length := by
    rw [List.length_drop, length_capacities]
    omega
  have hnot := hnone _ (List.getElem_mem hlength)
  rw [getElem_capacities hstart, Nat.add_sub_cancel' hw] at hnot
  exact Nat.lt_of_not_le (of_decide_eq_false hnot)

/-- As many searches as there are bands from the start on are enough. -/
theorem ends_fitFrom (searches : Nat) (hbands : 3 ≤ searches + (Band.ofVersion start).index)
    (hstart : 1 ≤ start) :
    encoderSizing.Ends level parts start (fitFrom level parts searches start) := by
  induction searches generalizing start with
  | zero =>
    have htwo : (Band.ofVersion start).index ≤ 2 := by cases Band.ofVersion start <;> decide
    omega
  | succ searches ih =>
    rw [fitFrom, ← bitsNeeded_encoderSizing]
    cases hleast : leastVersion? level (encoderSizing.bitsNeeded start parts) start with
    | none => exact .nowhere fun w hw => lt_of_leastVersion?_eq_none hstart hleast hw
    | some v =>
      have hfirst := isFirst_of_leastVersion? hstart hleast
      have hv : start ≤ v := hfirst.1.1
      by_cases hband : Band.ofVersion v = Band.ofVersion start
      · simp only [if_pos hband]
        exact .here hfirst (lengthBits_encoderSizing_inj.mpr hband)
      · simp only [if_neg hband]
        have hindex : (Band.ofVersion v).index ≠ (Band.ofVersion start).index :=
          fun h => hband (Band.index_injective h)
        have hmono := Band.index_mono hv
        exact .again hfirst (fun h => hband (lengthBits_encoderSizing_inj.mp h))
          (ih (by omega) (Nat.le_trans hstart hv))

/-- The encoder's search is the one that goes with its measures. -/
theorem ends_iff_fitVersion {outcome : Option Nat} :
    encoderSizing.Ends level parts 1 outcome ↔ fitVersion level parts = outcome := by
  have hends : encoderSizing.Ends level parts 1 (fitVersion level parts) :=
    ends_fitFrom 3 (by decide) (Nat.le_refl 1)
  exact ⟨fun h => hends.unique h, fun h => h ▸ hends⟩

/-! ### Codes -/

/-- A version that is found makes a code, unless it has a blank block. -/
theorem build_of_fitVersion (h : fitVersion level parts = some v) :
    build level parts =
      if (blocks level v parts).any isBlank then .error .value else .ok (modules v) := by
  rw [build, h]

end

/-- The encoder makes its codes by what it measures. -/
theorem isDocumented_encoderSizing : encoderSizing.IsDocumented where
  lengthBits_mono _ h _ part := Band.lengthBits_mono (Band.index_mono h) part.mode
  capacity_anti h _ _ hforty := capacity_anti h hforty
  make_nowhere {level parts} h := by
    refine .inr (show build level parts = .error .value from ?_)
    rw [build, ends_iff_fitVersion.mp h]
  make_here {level parts version} h := by
    show build level parts = _ ∨ build level parts = _
    rw [build_of_fitVersion (ends_iff_fitVersion.mp h), modules, Nat.add_comm]
    split
    · exact .inr rfl
    · exact .inl rfl

/-- The version that is found is the least that holds the segments. -/
theorem isLeast_of_fitVersion {level : CorrectionLevel} {parts : List Segment} {v : Nat}
    (h : fitVersion level parts = some v) : IsLeast {v | encoderSizing.Holds level parts v} v :=
  (ends_iff_fitVersion.mpr h).isFit_of_one isDocumented_encoderSizing

end LabelLayout.Barcode.Qr
