/-!
# `LabelLayout.Barcode.Qr.Segment`: the data of a QR code in segments

The data, as bytes, is cut into numeric, alphanumeric and byte segments. Digits
are packed three to ten bits and alphanumeric characters two to eleven.
`length_payload` says how many bits a payload has without forming it.

Short data is one segment when all of it is digits or all of it alphanumeric;
one line feed at its end then stands apart. Longer data gives every run of at
least 20 digits, and between these every run of at least 20 alphanumeric
characters, a segment of its own.
-/

set_option autoImplicit false

namespace LabelLayout.Barcode.Qr

/-- The encodings of a segment. -/
inductive Mode where
  | numeric | alphanumeric | byte
  deriving DecidableEq, Repr, Inhabited

/-- Bytes under one encoding. -/
structure Segment where
  mode : Mode
  bytes : List Nat
  deriving DecidableEq, Repr, Inhabited

def isNumeric (byte : Nat) : Bool := 0x30 ≤ byte && byte ≤ 0x39

/-- The alphanumeric characters in the order of their values: digits, letters,
blank and punctuation. -/
def alphabet : List Nat :=
  "0123456789ABCDEFGHIJKLMNOPQRSTUVWXYZ $%*+-./:".toList.map Char.toNat

def isAlphanumeric (byte : Nat) : Bool := alphabet.contains byte

/-! ## Cutting data into segments -/

/-- Data up to this many bytes is cut by its whole, longer data by its runs; it is
also the least length of a run that is worth a segment. -/
def runLength : Nat := 20

/-- Short data as one segment of a class of bytes, if it is one. A line feed at
the end does not count. -/
def wholeOf? (inClass : Nat → Bool) (mode : Mode) (bytes : List Nat) : Option (List Segment) :=
  if !bytes.isEmpty && bytes.all inClass then some [⟨mode, bytes⟩]
  else match bytes.reverse with
    | 0x0a :: rest =>
      if !rest.isEmpty && rest.all inClass then
        some [⟨mode, rest.reverse⟩, ⟨.byte, [0x0a]⟩]
      else none
    | _ => none

/-- The maximal runs of a class and what lies between them, in order: whether a
piece is in the class, and its bytes. -/
def runs (inClass : Nat → Bool) : List Nat → List (Bool × List Nat)
  | [] => []
  | b :: rest =>
    match runs inClass rest with
    | (c, piece) :: pieces =>
      if inClass b = c then (c, b :: piece) :: pieces
      else (inClass b, [b]) :: (c, piece) :: pieces
    | [] => [(inClass b, [b])]

/-- Joins neighbouring pieces that are no long runs. -/
def joinShort : List (Bool × List Nat) → List (Bool × List Nat)
  | [] => []
  | (c, piece) :: rest =>
    let long := c && runLength ≤ piece.length
    match joinShort rest with
    | (false, next) :: pieces =>
      if long then (true, piece) :: (false, next) :: pieces
      else (false, piece ++ next) :: pieces
    | pieces => (long, piece) :: pieces

/-- The long runs of a class, and what lies between them. -/
def longRuns (inClass : Nat → Bool) (bytes : List Nat) : List (Bool × List Nat) :=
  joinShort (runs inClass bytes)

/-- The segments of data. -/
def segments (bytes : List Nat) : List Segment :=
  if bytes.length ≤ runLength then
    match wholeOf? isNumeric .numeric bytes, wholeOf? isAlphanumeric .alphanumeric bytes with
    | some parts, _ => parts
    | none, some parts => parts
    | none, none => if bytes.isEmpty then [] else [⟨.byte, bytes⟩]
  else
    (longRuns isNumeric bytes).flatMap fun (numeric, piece) =>
      if numeric then [⟨.numeric, piece⟩]
      else (longRuns isAlphanumeric piece).map fun (alphanumeric, part) =>
        ⟨if alphanumeric then .alphanumeric else .byte, part⟩

/-! ## Payloads -/

/-- The lowest bits of a number, highest first. -/
def bitsOf : (width n : Nat) → List Bool
  | 0, _ => []
  | width + 1, n => n.testBit width :: bitsOf width n

@[simp]
theorem length_bitsOf (width n : Nat) : (bitsOf width n).length = width := by
  induction width with
  | zero => rfl
  | succ width ih => simp [bitsOf, ih]

/-- Digits three by three, each group as one number. -/
def packDigits : List Nat → List Bool
  | [] => []
  | [a] => bitsOf 4 a
  | [a, b] => bitsOf 7 (10 * a + b)
  | a :: b :: c :: rest => bitsOf 10 (100 * a + 10 * b + c) ++ packDigits rest

/-- Values of alphanumeric characters two by two, each pair as one number. -/
def packPairs : List Nat → List Bool
  | [] => []
  | [a] => bitsOf 6 a
  | a :: b :: rest => bitsOf 11 (45 * a + b) ++ packPairs rest

/-- The bits of the data of a segment. -/
def Segment.payload (segment : Segment) : List Bool :=
  match segment.mode with
  | .numeric => packDigits (segment.bytes.map (· - 0x30))
  | .alphanumeric => packPairs (segment.bytes.map alphabet.idxOf)
  | .byte => segment.bytes.flatMap (bitsOf 8)

/-- The size of a payload: ten bits for three digits, eleven for two alphanumeric
characters, eight for a byte. -/
def Segment.payloadBits (segment : Segment) : Nat :=
  let length := segment.bytes.length
  match segment.mode with
  | .numeric =>
    10 * (length / 3) + (if length % 3 = 0 then 0 else if length % 3 = 1 then 4 else 7)
  | .alphanumeric => 11 * (length / 2) + 6 * (length % 2)
  | .byte => 8 * length

theorem length_packDigits (digits : List Nat) :
    (packDigits digits).length = 10 * (digits.length / 3) +
      (if digits.length % 3 = 0 then 0 else if digits.length % 3 = 1 then 4 else 7) := by
  fun_induction packDigits digits with
  | case1 => rfl
  | case2 => simp
  | case3 => simp
  | case4 a b c rest ih =>
    rw [List.length_append, ih, length_bitsOf]
    simp only [List.length_cons]
    have hmod : (rest.length + 1 + 1 + 1) % 3 = rest.length % 3 := by omega
    simp only [hmod]
    omega

theorem length_packPairs (values : List Nat) :
    (packPairs values).length = 11 * (values.length / 2) + 6 * (values.length % 2) := by
  fun_induction packPairs values with
  | case1 => rfl
  | case2 => simp
  | case3 a b rest ih =>
    rw [List.length_append, ih, length_bitsOf]
    simp only [List.length_cons]
    omega

/-- A payload has as many bits as counted. -/
@[simp]
theorem length_payload (segment : Segment) :
    segment.payload.length = segment.payloadBits := by
  obtain ⟨mode, bytes⟩ := segment
  cases mode with
  | numeric => simp [Segment.payload, Segment.payloadBits, length_packDigits]
  | alphanumeric => simp [Segment.payload, Segment.payloadBits, length_packPairs]
  | byte =>
    simp only [Segment.payload, Segment.payloadBits, List.length_flatMap, length_bitsOf]
    induction bytes with
    | nil => rfl
    | cons b rest ih =>
      simp only [List.map_cons, List.sum_cons, ih, List.length_cons]
      omega

end LabelLayout.Barcode.Qr
