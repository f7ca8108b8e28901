import LabelLayout.Fault
import LabelLayout.Style
import LabelLayout.Text.CodePoint

/-!
# `LabelLayout.Barcode.Qr.Package`: what makes QR codes

QR codes are made by a package that is no part of this library. The library hands a text over,
has a code of some level made of what the package took it for, and asks for the modules of that
code. How the package goes about it is its own affair: `Package` is what passes between the
two, and `LawfulPackage` what the library relies on.
-/

set_option autoImplicit false

namespace LabelLayout.Barcode.Qr

/-- The ways in which a package fails to make a code. -/
inductive MakeError where
  /-- The data overflows the largest code. -/
  | overflow
  /-- Some value is none to work with. A version behind the last one is, which is another way
  to say that the data overflows. -/
  | value
  /-- Anything else. -/
  | fault (f : Fault)
  deriving DecidableEq, Repr, Inhabited

/-- A package that makes QR codes. -/
class Package where
  /-- The pieces that it cuts data into. -/
  Chunk : Type
  /-- The data of a text. -/
  add : String → Except Fault (List Chunk)
  /-- The modules per side of the code of a level that is made of some data. -/
  make : CorrectionLevel → List Chunk → Except MakeError Nat

/-- What a package promises. -/
class LawfulPackage [Package] : Prop where
  /-- A text has data unless half of a surrogate pair stands alone in it, which has no bytes. -/
  add_eq_error : ∀ {text : String} {f : Fault}, Package.add text = .error f ↔
    f = .notEncodable ∧ ∃ code ∈ Text.codePoints text.toList, Text.isSurrogate code = true
  /-- Making a code fails in the two ways only that it is known to fail in. -/
  make_ne_fault : ∀ {level : CorrectionLevel} {chunks : List Package.Chunk} {f : Fault},
    Package.make level chunks ≠ .error (.fault f)
  /-- A code has modules. -/
  pos_of_make : ∀ {level : CorrectionLevel} {chunks : List Package.Chunk} {modules : Nat},
    Package.make level chunks = .ok modules → 0 < modules

end LabelLayout.Barcode.Qr
