import LabelLayout.Barcode.Qr.Package
import Mathlib.Data.Nat.Find
import Mathlib.Order.Bounds.Basic

/-!
# `LabelLayout.Proofs.Barcode.Sizing`: how a package finds the size of a QR code

What a package measures is a parameter here. `Sizing` has the width of the length field that a
chunk gets, which depends on the version, the size of its payload, and the room that a version
of a level has. `Sizing.Ends` is the search that goes with these measures, and
`Sizing.IsDocumented` says that a package makes its codes by it.

The search counts the bits with the length fields of the version it starts from, goes to the
first version with room for so many bits, and starts again from there if the fields of that
version are others. The bits that versions were compared with were too few then. But fields never
get narrower, so a version that was passed over has no room for the data under its own fields
either (`IsDocumented.not_holds_of_lt_first`). `Ends.isFit` carries this along a search: it ends
at the least version that holds the data, or nowhere if there is none.
`IsDocumented.make_cases` is what becomes of the code.
-/

set_option autoImplicit false

namespace LabelLayout.Barcode.Qr

/-- The levels from the weakest to the strongest. -/
def strength : CorrectionLevel → Nat
  | .low => 0
  | .medium => 1
  | .quartile => 2
  | .high => 3

/-- What a package measures. -/
structure Sizing [Package] where
  /-- The width of the length field of a chunk in a version. -/
  lengthBits : Nat → Package.Chunk → Nat
  /-- The bits of a chunk itself. -/
  payloadBits : Package.Chunk → Nat
  /-- The bits that a version of a level has room for. -/
  capacity : CorrectionLevel → Nat → Nat

namespace Sizing

section

variable [Package] (s : Sizing) (level : CorrectionLevel) (chunks : List Package.Chunk)

/-- The bits that chunks need in a version: four for the mode of each, its length, its payload. -/
def bitsNeeded (version : Nat) : List Package.Chunk → Nat
  | [] => 0
  | chunk :: rest =>
    4 + s.lengthBits version chunk + s.payloadBits chunk + bitsNeeded version rest

/-- A version of a level has room for chunks, each with a length field of that version. -/
structure Holds (version : Nat) : Prop where
  one_le : 1 ≤ version
  le_forty : version ≤ 40
  room : s.bitsNeeded version chunks ≤ s.capacity level version

/-- The first version from `start` on that has room for a number of bits. -/
def IsFirst (bits start version : Nat) : Prop :=
  IsLeast {v | start ≤ v ∧ v ≤ 40 ∧ bits ≤ s.capacity level v} version

/-- How a search for a version ends that starts from one. -/
inductive Ends : Nat → Option Nat → Prop where
  /-- No version has room for the bits that are needed where the search starts. -/
  | nowhere {start : Nat}
      (full : ∀ v, start ≤ v → v ≤ 40 → s.capacity level v < s.bitsNeeded start chunks) :
      Ends start none
  /-- The first version with room for them has the same length fields. -/
  | here {start version : Nat}
      (first : s.IsFirst level (s.bitsNeeded start chunks) start version)
      (same : s.lengthBits version = s.lengthBits start) : Ends start (some version)
  /-- It has others, and the search starts again from it. -/
  | again {start version : Nat} {outcome : Option Nat}
      (first : s.IsFirst level (s.bitsNeeded start chunks) start version)
      (other : s.lengthBits version ≠ s.lengthBits start) (ends : Ends version outcome) :
      Ends start outcome

/-- The outcome of a search for the least version that holds chunks. -/
def IsFit : Option Nat → Prop
  | some version => IsLeast {v | s.Holds level chunks v} version
  | none => ∀ v, ¬ s.Holds level chunks v

/-- A package gives up, over some value, on data that a version holds. -/
def BreaksOff : Prop :=
  (∃ version, s.Holds level chunks version) ∧ Package.make level chunks = .error .value

end

/-- A package makes its codes from what it measures. -/
structure IsDocumented [Package] (s : Sizing) : Prop where
  /-- A later version has no narrower length fields. -/
  lengthBits_mono : ∀ {v w : Nat}, 1 ≤ v → v ≤ w → w ≤ 40 → ∀ chunk,
    s.lengthBits v chunk ≤ s.lengthBits w chunk
  /-- A version has no more room at a stronger level. -/
  capacity_anti : ∀ {level stronger : CorrectionLevel}, strength level ≤ strength stronger →
    ∀ {v : Nat}, 1 ≤ v → v ≤ 40 → s.capacity stronger v ≤ s.capacity level v
  /-- Data for which the search ends nowhere overflows. Since that makes the version the one
  behind the last, it may be reported as a value that is none to work with. -/
  make_nowhere : ∀ {level : CorrectionLevel} {chunks : List Package.Chunk},
    s.Ends level chunks 1 none →
      Package.make level chunks = .error .overflow ∨ Package.make level chunks = .error .value
  /-- A code has the version where the search ends, if the data can be worked with at all. A
  version has `17 + 4 v` modules on each side. -/
  make_here : ∀ {level : CorrectionLevel} {chunks : List Package.Chunk} {version : Nat},
    s.Ends level chunks 1 (some version) →
      Package.make level chunks = .ok (17 + 4 * version) ∨
        Package.make level chunks = .error .value

section

variable [Package] {s : Sizing} {level : CorrectionLevel} {chunks : List Package.Chunk}
  {start v w : Nat} {outcome : Option Nat}

/-! ### The search -/

/-- Some version has room for bits, or none has. -/
theorem exists_isFirst (s : Sizing) (level : CorrectionLevel) (bits start : Nat) :
    (∃ v, s.IsFirst level bits start v) ∨
      ∀ v, start ≤ v → v ≤ 40 → s.capacity level v < bits := by
  by_cases h : ∃ v, start ≤ v ∧ v ≤ 40 ∧ bits ≤ s.capacity level v
  · exact .inl ⟨Nat.find h, Nat.find_spec h, fun v hv => Nat.find_min' h hv⟩
  · exact .inr fun v hstart hforty => Nat.lt_of_not_le fun hroom => h ⟨v, hstart, hforty, hroom⟩

/-- Every search ends, for it starts again from a later version only. -/
theorem exists_ends (s : Sizing) (level : CorrectionLevel) (chunks : List Package.Chunk)
    (start : Nat) : ∃ outcome, s.Ends level chunks start outcome := by
  induction hleft : 41 - start using Nat.strong_induction_on generalizing start with
  | h left ih =>
    obtain ⟨v, hfirst⟩ | hfull := exists_isFirst s level (s.bitsNeeded start chunks) start
    · by_cases hsame : s.lengthBits v = s.lengthBits start
      · exact ⟨some v, .here hfirst hsame⟩
      · obtain ⟨hstart, hforty, -⟩ := hfirst.1
        have hne : start ≠ v := fun h => hsame (congrArg s.lengthBits h.symm)
        obtain ⟨outcome, hends⟩ := ih (41 - v) (by omega) v rfl
        exact ⟨outcome, .again hfirst hsame hends⟩
    · exact ⟨none, .nowhere hfull⟩

/-- Where no version has room, none is the first to have it. -/
theorem IsFirst.not_full {bits : Nat} (h : s.IsFirst level bits start v) :
    ¬ ∀ w, start ≤ w → w ≤ 40 → s.capacity level w < bits :=
  fun hfull => Nat.not_le.mpr (hfull v h.1.1 h.1.2.1) h.1.2.2

/-- A search ends in one way only. -/
theorem Ends.unique {other : Option Nat} (h : s.Ends level chunks start outcome)
    (h' : s.Ends level chunks start other) : outcome = other := by
  induction h with
  | nowhere full =>
    cases h' with
    | nowhere => rfl
    | here first same => exact absurd full first.not_full
    | again first hother ends => exact absurd full first.not_full
  | here first same =>
    cases h' with
    | nowhere full => exact absurd full first.not_full
    | here first' same' => rw [first.unique first']
    | again first' hother ends =>
      rw [first.unique first'] at same
      exact absurd same hother
  | again first hother ends ih =>
    cases h' with
    | nowhere full => exact absurd full first.not_full
    | here first' same =>
      rw [first.unique first'] at hother
      exact absurd same hother
    | again first' hother' ends' =>
      rw [← first.unique first'] at ends'
      exact ih ends'

/-- Chunks need as many bits in versions with the same length fields. -/
theorem bitsNeeded_congr (h : s.lengthBits v = s.lengthBits w) (chunks : List Package.Chunk) :
    s.bitsNeeded v chunks = s.bitsNeeded w chunks := by
  induction chunks with
  | nil => rfl
  | cons chunk rest ih => rw [bitsNeeded, bitsNeeded, h, ih]

/-- Chunks need no fewer bits in a later version. -/
theorem IsDocumented.bitsNeeded_mono (hs : s.IsDocumented) (hv : 1 ≤ v) (h : v ≤ w)
    (hw : w ≤ 40) (chunks : List Package.Chunk) :
    s.bitsNeeded v chunks ≤ s.bitsNeeded w chunks := by
  induction chunks with
  | nil => exact Nat.le_refl _
  | cons chunk rest ih =>
    have hfield := hs.lengthBits_mono hv h hw chunk
    simp only [bitsNeeded]
    omega

/-- What has too little room for the bits of an earlier version does not hold the chunks. -/
theorem IsDocumented.not_holds_of_lt (hs : s.IsDocumented) (hstart : 1 ≤ start) (hw : start ≤ w)
    (h : s.capacity level w < s.bitsNeeded start chunks) : ¬ s.Holds level chunks w :=
  fun hholds => Nat.not_le.mpr
    (Nat.lt_of_lt_of_le h (hs.bitsNeeded_mono hstart hw hholds.le_forty chunks)) hholds.room

/-- Nothing before the first version with room for the bits that are needed where a search
starts holds the chunks, if nothing before the start does. -/
theorem IsDocumented.not_holds_of_lt_first (hs : s.IsDocumented) (hstart : 1 ≤ start)
    (hbelow : ∀ w < start, ¬ s.Holds level chunks w)
    (first : s.IsFirst level (s.bitsNeeded start chunks) start v) :
    ∀ w < v, ¬ s.Holds level chunks w := by
  intro w hlt hholds
  have hw : start ≤ w := Nat.le_of_not_lt fun h => hbelow w h hholds
  refine hs.not_holds_of_lt hstart hw (Nat.lt_of_not_le fun hroom => ?_) hholds
  exact Nat.not_le.mpr hlt (first.2 ⟨hw, hholds.le_forty, hroom⟩)

/-- From a version below which none holds the chunks, a search finds the least that does. -/
theorem Ends.isFit (hs : s.IsDocumented) (h : s.Ends level chunks start outcome)
    (hstart : 1 ≤ start) (hbelow : ∀ w < start, ¬ s.Holds level chunks w) :
    s.IsFit level chunks outcome := by
  induction h with
  | nowhere full =>
    intro w hholds
    have hw := Nat.le_of_not_lt fun hlt => hbelow w hlt hholds
    exact hs.not_holds_of_lt hstart hw (full w hw hholds.le_forty) hholds
  | @here start version first same =>
    obtain ⟨hv, hforty, hroom⟩ := first.1
    -- The bits were counted with the fields that the version has itself.
    rw [← bitsNeeded_congr same] at hroom
    refine ⟨⟨Nat.le_trans hstart hv, hforty, hroom⟩, fun w hholds => ?_⟩
    exact Nat.le_of_not_lt fun hlt => hs.not_holds_of_lt_first hstart hbelow first w hlt hholds
  | again first other ends ih =>
    exact ih (Nat.le_trans hstart first.1.1) (hs.not_holds_of_lt_first hstart hbelow first)

/-- A search from the first version on finds the least that holds the chunks. -/
theorem Ends.isFit_of_one (hs : s.IsDocumented) (h : s.Ends level chunks 1 outcome) :
    s.IsFit level chunks outcome :=
  h.isFit hs (Nat.le_refl 1) fun _ hw hholds => Nat.not_le.mpr hw hholds.one_le

/-! ### The code -/

theorem Holds.of_strength_le {stronger : CorrectionLevel} (hs : s.IsDocumented)
    (h : s.Holds stronger chunks v) (hlevel : strength level ≤ strength stronger) :
    s.Holds level chunks v :=
  ⟨h.one_le, h.le_forty, Nat.le_trans h.room (hs.capacity_anti hlevel h.one_le h.le_forty)⟩

/-- Making a code fails where no version holds the chunks. Where the least version that holds
them is `v`, the code has that version unless the package breaks off. -/
theorem IsDocumented.make_cases (hs : s.IsDocumented) (level : CorrectionLevel)
    (chunks : List Package.Chunk) :
    ((Package.make level chunks = .error .overflow ∨ Package.make level chunks = .error .value) ∧
      ∀ v, ¬ s.Holds level chunks v) ∨
    ∃ v, IsLeast {v | s.Holds level chunks v} v ∧
      (Package.make level chunks = .ok (17 + 4 * v) ∨ s.BreaksOff level chunks) := by
  obtain ⟨outcome, hends⟩ := exists_ends s level chunks 1
  have hfit := hends.isFit_of_one hs
  cases outcome with
  | none => exact .inl ⟨hs.make_nowhere hends, hfit⟩
  | some v =>
    refine .inr ⟨v, hfit, (hs.make_here hends).imp_right fun hvalue => ?_⟩
    exact ⟨⟨v, hfit.1⟩, hvalue⟩

end

end Sizing

end LabelLayout.Barcode.Qr
