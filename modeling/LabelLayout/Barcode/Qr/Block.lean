import LabelLayout.Barcode.Qr.Version

/-!
# `LabelLayout.Barcode.Qr.Block`: the data of a QR code in blocks

A version of a level divides its codewords, of eight bits each, among blocks, and
every block gets check codewords of its own. The bits of the segments are followed
by up to four zeros, by zeros up to a whole codeword, and by two codewords in turn
that fill what is left.

Check codewords are the remainder of a division that starts at a block's first
codeword other than zero. A blank block, all of whose codewords are zero, has no
such start; long rows of zeros in the data are what fills one.
-/

set_option autoImplicit false

namespace LabelLayout.Barcode.Qr

/-- The numbers of blocks of the versions 1 to 40. -/
def blockCounts : CorrectionLevel → List Nat
  | .low => [1, 1, 1, 1, 1, 2, 2, 2, 2, 4, 4, 4, 4, 4, 6, 6, 6, 6, 7, 8, 8, 9, 9, 10, 12, 12,
      12, 13, 14, 15, 16, 17, 18, 19, 19, 20, 21, 22, 24, 25]
  | .medium => [1, 1, 1, 2, 2, 4, 4, 4, 5, 5, 5, 8, 9, 9, 10, 10, 11, 13, 14, 16, 17, 17, 18,
      20, 21, 23, 25, 26, 28, 29, 31, 33, 35, 37, 38, 40, 43, 45, 47, 49]
  | .quartile => [1, 1, 2, 2, 4, 4, 6, 6, 8, 8, 8, 10, 12, 16, 12, 17, 16, 18, 21, 20, 23, 23,
      25, 27, 29, 34, 34, 35, 38, 40, 43, 45, 48, 51, 53, 56, 59, 62, 65, 68]
  | .high => [1, 1, 2, 4, 4, 4, 5, 6, 8, 8, 11, 11, 16, 16, 18, 16, 19, 21, 25, 25, 25, 34, 30,
      32, 35, 37, 40, 42, 45, 48, 51, 54, 57, 60, 63, 66, 70, 74, 77, 81]

/-- Codewords shared among blocks as evenly as can be, the smaller blocks first. -/
def blockSizes (codewords blocks : Nat) : List Nat :=
  List.replicate (blocks - codewords % blocks) (codewords / blocks) ++
    List.replicate (codewords % blocks) (codewords / blocks + 1)

/-- A number of filling codewords, two different ones in turn. -/
def filling (codewords : Nat) : List Bool :=
  (List.range codewords).flatMap fun i => bitsOf 8 (if i % 2 = 0 then 0xec else 0x11)

/-- The zeros behind a number of bits: up to four where there is room, and as
many as complete a codeword. -/
def closing (capacity used : Nat) : List Bool :=
  let ended := used + min 4 (capacity - used)
  List.replicate (ended - used + (8 - ended % 8) % 8) false

/-- All data bits of a code of some capacity. -/
def content (capacity : Nat) (bits : List Bool) : List Bool :=
  let closed := bits ++ closing capacity bits.length
  closed ++ filling ((capacity - closed.length) / 8)

/-- Bits cut into blocks of so many codewords. -/
def cut : List Nat → List Bool → List (List Bool)
  | [], _ => []
  | size :: sizes, bits => bits.take (8 * size) :: cut sizes (bits.drop (8 * size))

/-- The blocks of a code that holds segments. -/
def blocks (level : CorrectionLevel) (version : Nat) (parts : List Segment) :
    List (List Bool) :=
  let capacity := (capacities level).getD (version - 1) 0
  let count := (blockCounts level).getD (version - 1) 1
  cut (blockSizes (capacity / 8) count) (content capacity (stream (Band.ofVersion version) parts))

/-- Whether a block has nothing but zeros. -/
def isBlank (block : List Bool) : Bool := block.all (!·)

end LabelLayout.Barcode.Qr
