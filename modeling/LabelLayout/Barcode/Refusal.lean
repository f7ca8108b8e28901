import LabelLayout.Fault
import LabelLayout.Value.Literal

/-!
# `LabelLayout.Barcode.Refusal`: why a value does not encode

A scan code takes only some values. A `Refusal` is the rule that a value broke,
and `Refusal.message` its wording, which is also the text of the advisory print
check.
-/

set_option autoImplicit false

namespace LabelLayout.Barcode

/-- The rules that a value for a bar code or a QR code can break. -/
inductive Refusal where
  | unsupportedSymbology (name : Datum)
  | code128Empty
  /-- A code point that Code 128 does not take, as it is spelled. -/
  | code128Character (point : List Char)
  | code39Empty
  | code39Asterisk
  /-- A code point that Code 39 does not take, as it is spelled. -/
  | code39Character (point : List Char)
  | ean13Empty
  | ean13NotDigits
  | ean13Length
  | ean13CheckDigit (got expected : Char)
  | upcEmpty
  | upcNotDigits
  | upcLength
  | upcCheckDigit (got expected : Char)
  | qrEmpty
  | qrUnknownLevel (level : Datum)
  | qrTooLong (level : String)
  deriving DecidableEq, Repr, Inhabited

/-- How a value fails to be encoded. -/
inductive Failure where
  /-- A rule of the symbology refuses the value. -/
  | refused (refusal : Refusal)
  /-- A character is not what it passes for: a digit without a decimal value, or a
  surrogate that stands alone. -/
  | fault (fault : Fault)
  deriving DecidableEq, Repr, Inhabited

def Refusal.message : Refusal → String
  | .unsupportedSymbology name => s!"Unsupported barcode symbology {name.literal}."
  | .code128Empty => "Code 128 data cannot be empty."
  | .code128Character point =>
    "Code 128 only supports printable ASCII (32–126). Offending char: " ++
      String.ofList (Text.quoted point)
  | .code39Empty => "Code 39 data cannot be empty."
  | .code39Asterisk =>
    "Do not include '*' in Code 39 data (it's reserved for start/stop)."
  | .code39Character point =>
    "Code 39 does not allow " ++ String.ofList (Text.quoted point) ++
      ". Allowed: A–Z, 0–9, space, - . $ / + %"
  | .ean13Empty => "EAN-13 data cannot be empty."
  | .ean13NotDigits => "EAN-13 supports digits only."
  | .ean13Length => "EAN-13 must be 12 or 13 digits long."
  | .ean13CheckDigit got expected =>
    s!"Invalid EAN-13 check digit: got {got}, expected {expected}."
  | .upcEmpty => "UPC-A data cannot be empty."
  | .upcNotDigits => "UPC-A supports digits only."
  | .upcLength => "UPC-A must be 11 or 12 digits long."
  | .upcCheckDigit got expected =>
    s!"Invalid UPC-A check digit: got {got}, expected {expected}."
  | .qrEmpty => "QR Code data cannot be empty."
  | .qrUnknownLevel level => s!"Unknown QR error correction level {level.literal}."
  | .qrTooLong level =>
    s!"QR Code data too long for error correction level {level}."

end LabelLayout.Barcode
