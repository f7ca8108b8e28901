import LabelLayout.Text.CodePoint
import LabelLayout.Text.Printable

/-!
# `LabelLayout.Text.Quoted`: texts between quotes in a message

A message shows a text in single quotes, or in double quotes when it holds a
single one and no double one. The quote in use and the backslash are escaped,
line feed, carriage return and tab are `\n`, `\r` and `\t`, and any other
code point that does not print is its code in hexadecimal after `\x`, `\u` or
`\U`. A surrogate that stands alone does not.
-/

set_option autoImplicit false

namespace LabelLayout.Text

/-- A number in lower-case hexadecimal, with zeros in front up to a width. -/
def hex (width n : Nat) : List Char :=
  let digits := Nat.toDigits 16 n
  List.replicate (width - digits.length) '0' ++ digits

/-- A code in hexadecimal. -/
def escapeCode (code : Nat) : List Char :=
  if code < 0x100 then '\\' :: 'x' :: hex 2 code
  else if code < 0x10000 then '\\' :: 'u' :: hex 4 code
  else '\\' :: 'U' :: hex 8 code

/-- A character between quotes `quote`. -/
def quoteChar (quote c : Char) : List Char :=
  if c = quote ∨ c = '\\' then ['\\', c]
  else if c = '\n' then ['\\', 'n']
  else if c = '\r' then ['\\', 'r']
  else if c = '\t' then ['\\', 't']
  else if isPrintable c then [c]
  else escapeCode c.toNat

/-- A code point between quotes `quote`. -/
def quotePoint (quote : Char) (code : Nat) : List Char :=
  if isSurrogate code then escapeCode code else quoteChar quote (Char.ofNat code)

/-- The quote that a text is shown in. -/
def quoteFor (text : List Char) : Char :=
  if text.contains '\'' && !text.contains '"' then '"' else '\''

/-- A text between quotes. -/
def quoted (text : List Char) : List Char :=
  let quote := quoteFor text
  quote :: (codePoints text).flatMap (quotePoint quote) ++ [quote]

end LabelLayout.Text
