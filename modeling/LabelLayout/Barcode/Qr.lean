import LabelLayout.Barcode.Qr.Package
import LabelLayout.Barcode.Refusal
import LabelLayout.Text.Blank

/-!
# `LabelLayout.Barcode.Qr`: how large a QR code has to be

The size of a QR code is that of the code which a package makes. A blank text is refused before
the package sees it. Where the package fails to make a code over an overflow, or over a value
that it cannot use, the data is refused as too long; what it cannot take as data at all is a
fault.
-/

set_option autoImplicit false

namespace LabelLayout.Barcode.Qr

/-- The modules per side of the smallest code that holds a text. -/
def moduleCount [Package] (text : String) (level : CorrectionLevel) : Except Failure Nat :=
  if (Text.trim text.toList).isEmpty then .error (.refused .qrEmpty)
  else match Package.add text with
    | .error f => .error (.fault f)
    | .ok chunks =>
      match Package.make level chunks with
      | .error .overflow | .error .value => .error (.refused (.qrTooLong (Choice.name level)))
      | .error (.fault f) => .error (.fault f)
      | .ok modules => .ok modules

end LabelLayout.Barcode.Qr
