import LabelLayout.Text.CodePoint

/-!
# `LabelLayout.Json.Encoding`: the text behind the bytes of a JSON file

A file may be encoded in UTF-8, UTF-16 or UTF-32. A byte order mark decides, and
without one the zero bytes among the first four do, because a JSON text starts
with two ASCII characters. A UTF-8 mark is dropped. Surrogate codes are let
through by all three decoders, but a pair in UTF-16 is one code point.
-/

set_option autoImplicit false

namespace LabelLayout.Json

inductive Encoding where
  | utf8
  | utf16 (bigEndian : Bool)
  | utf32 (bigEndian : Bool)
  deriving DecidableEq, Repr, Inhabited

/-- The encoding of a file, and its bytes without a byte order mark. -/
def Encoding.detect : List Nat → Encoding × List Nat
  | 0x00 :: 0x00 :: 0xfe :: 0xff :: rest => (.utf32 true, rest)
  | 0xff :: 0xfe :: 0x00 :: 0x00 :: rest => (.utf32 false, rest)
  | 0xfe :: 0xff :: rest => (.utf16 true, rest)
  | 0xff :: 0xfe :: rest => (.utf16 false, rest)
  | 0xef :: 0xbb :: 0xbf :: rest => (.utf8, rest)
  | a :: b :: c :: d :: rest =>
    let bytes := a :: b :: c :: d :: rest
    if a = 0 then (if b = 0 then .utf32 true else .utf16 true, bytes)
    else if b = 0 then (if c = 0 ∧ d = 0 then .utf32 false else .utf16 false, bytes)
    else (.utf8, bytes)
  | [a, b] =>
    (if a = 0 then .utf16 true else if b = 0 then .utf16 false else .utf8, [a, b])
  | bytes => (.utf8, bytes)

/-- Whether a byte continues a character of UTF-8. -/
def isContinuation (byte : Nat) : Bool := 0x80 ≤ byte && byte < 0xc0

/-- UTF-8 in its shortest form. -/
def decodeUtf8 : List Nat → Option (List Char)
  | [] => some []
  | a :: rest =>
    if a < 0x80 then (decodeUtf8 rest).map (Text.spell a ++ ·)
    else match rest with
      | [] => none
      | b :: rest =>
        if !isContinuation b then none
        else if 0xc2 ≤ a && a < 0xe0 then
          (decodeUtf8 rest).map (Text.spell ((a - 0xc0) * 0x40 + (b - 0x80)) ++ ·)
        else match rest with
          | [] => none
          | c :: rest =>
            if !isContinuation c then none
            else if 0xe0 ≤ a && a < 0xf0 then
              let code := ((a - 0xe0) * 0x40 + (b - 0x80)) * 0x40 + (c - 0x80)
              if code < 0x800 then none
              else (decodeUtf8 rest).map (Text.spell code ++ ·)
            else match rest with
              | [] => none
              | d :: rest =>
                let code := (((a - 0xf0) * 0x40 + (b - 0x80)) * 0x40 + (c - 0x80)) * 0x40 +
                  (d - 0x80)
                if isContinuation d && 0xf0 ≤ a && 0x10000 ≤ code && code < 0x110000 then
                  (decodeUtf8 rest).map (Text.spell code ++ ·)
                else none

/-- Pairs of bytes as 16-bit units. -/
def units16 (bigEndian : Bool) : List Nat → Option (List Nat)
  | [] => some []
  | [_] => none
  | a :: b :: rest =>
    (units16 bigEndian rest).map ((if bigEndian then a * 0x100 + b else b * 0x100 + a) :: ·)

/-- The text of UTF-16 units. -/
def decodeUnits : List Nat → List Char
  | high :: low :: rest =>
    if Text.isHighSurrogate high && Text.isLowSurrogate low then
      Text.spell (Text.codeOfPair high low) ++ decodeUnits rest
    else Text.spell high ++ decodeUnits (low :: rest)
  | [unit] => Text.spell unit
  | [] => []

/-- UTF-32, codes above U+10FFFF being refused. -/
def decodeUtf32 (bigEndian : Bool) : List Nat → Option (List Char)
  | [] => some []
  | a :: b :: c :: d :: rest =>
    let code := if bigEndian then ((a * 0x100 + b) * 0x100 + c) * 0x100 + d
      else ((d * 0x100 + c) * 0x100 + b) * 0x100 + a
    if code < 0x110000 then (decodeUtf32 bigEndian rest).map (Text.spell code ++ ·)
    else none
  | _ => none

/-- The text of a file. -/
def decode (bytes : List Nat) : Option (List Char) :=
  match Encoding.detect bytes with
  | (.utf8, bytes) => decodeUtf8 bytes
  | (.utf16 bigEndian, bytes) => (units16 bigEndian bytes).map decodeUnits
  | (.utf32 bigEndian, bytes) => decodeUtf32 bigEndian bytes

end LabelLayout.Json
