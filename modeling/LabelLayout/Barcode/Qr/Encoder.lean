import LabelLayout.Barcode.Qr.Block
import LabelLayout.Barcode.Qr.Package

/-!
# `LabelLayout.Barcode.Qr.Encoder`: the package that programs run with

This package cuts the UTF-8 bytes of a text into segments, looks for the smallest version that
holds them, and fills the blocks of that version. A code of version `v` has `4 v + 17` modules on
each side. Where no version is left, the one behind the last is a value that cannot be used, and
so is a blank block, of which no check codewords can be formed.
-/

set_option autoImplicit false

namespace LabelLayout.Barcode.Qr

/-- The bytes of characters in UTF-8. -/
def utf8 (chars : String) : List Nat := chars.toUTF8.toList.map UInt8.toNat

/-- The segments of a text. A surrogate that stands alone has no bytes. -/
def encode (text : String) : Except Fault (List Segment) :=
  let codes := Text.codePoints text.toList
  if codes.any Text.isSurrogate then .error .notEncodable
  else .ok (segments (utf8 (String.ofList (codes.map Char.ofNat))))

/-- The modules per side of a version. -/
def modules (version : Nat) : Nat := 4 * version + 17

/-- The modules per side of the smallest code that holds segments. -/
def build (level : CorrectionLevel) (parts : List Segment) : Except MakeError Nat :=
  match fitVersion level parts with
  | none => .error .value
  | some version =>
    if (blocks level version parts).any isBlank then .error .value else .ok (modules version)

instance encoder : Package where
  Chunk := Segment
  add := encode
  make := build

theorem encode_eq_error {text : String} {f : Fault} : encode text = .error f ↔
    f = .notEncodable ∧ ∃ code ∈ Text.codePoints text.toList, Text.isSurrogate code = true := by
  rw [encode, ← List.any_eq_true]
  cases (Text.codePoints text.toList).any Text.isSurrogate with
  | true =>
    rw [if_pos rfl, Except.error.injEq]
    exact ⟨fun h => ⟨h.symm, rfl⟩, fun h => h.1.symm⟩
  | false => exact ⟨fun h => (nomatch h), fun h => (nomatch h.2)⟩

/-- Nothing but a value goes wrong, and what is built has modules. -/
theorem build_cases (level : CorrectionLevel) (parts : List Segment) :
    build level parts = .error .value ∨ ∃ version, build level parts = .ok (modules version) := by
  rw [build]
  split
  · exact .inl rfl
  · split
    · exact .inl rfl
    · exact .inr ⟨_, rfl⟩

instance lawful_encoder : LawfulPackage where
  add_eq_error := encode_eq_error
  make_ne_fault {level parts f} h := by
    obtain hvalue | ⟨version, hbuilt⟩ := build_cases level parts
    · cases hvalue.symm.trans h
    · cases hbuilt.symm.trans h
  pos_of_make {level parts count} h := by
    obtain hvalue | ⟨version, hbuilt⟩ := build_cases level parts
    · cases hvalue.symm.trans h
    · cases hbuilt.symm.trans h
      exact Nat.succ_pos _

end LabelLayout.Barcode.Qr
