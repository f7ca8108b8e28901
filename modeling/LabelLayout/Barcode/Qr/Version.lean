import LabelLayout.Barcode.Qr.Segment
import LabelLayout.Style

/-!
# `LabelLayout.Barcode.Qr.Version`: the smallest version that holds the data

A segment costs four mode bits, a length field whose width depends on the band
of versions, and its payload. `fitVersion` is the smallest version whose
capacity holds the cost in its own band. `length_stream` says that the cost is
the length of the bits that are written.
-/

set_option autoImplicit false

namespace LabelLayout.Barcode.Qr

/-- The bands of versions with length fields of one width. -/
inductive Band where
  | small | middle | large
  deriving DecidableEq, Repr, Inhabited

def Band.ofVersion (version : Nat) : Band :=
  if version < 10 then .small else if version < 27 then .middle else .large

/-- The width of a length field. -/
def Band.lengthBits : Band → Mode → Nat
  | .small, .numeric => 10
  | .small, .alphanumeric => 9
  | .small, .byte => 8
  | .middle, .numeric => 12
  | .middle, .alphanumeric => 11
  | .middle, .byte => 16
  | .large, .numeric => 14
  | .large, .alphanumeric => 13
  | .large, .byte => 16

/-- The bits that segments need in a band of versions. -/
def bitsNeeded (band : Band) : List Segment → Nat
  | [] => 0
  | s :: rest => 4 + band.lengthBits s.mode + s.payloadBits + bitsNeeded band rest

/-- The number that announces an encoding. -/
def Mode.indicator : Mode → Nat
  | .numeric => 1
  | .alphanumeric => 2
  | .byte => 4

/-- The bits of a segment in a band of versions: mode, length and payload. -/
def Segment.bits (band : Band) (s : Segment) : List Bool :=
  bitsOf 4 s.mode.indicator ++ bitsOf (band.lengthBits s.mode) s.bytes.length ++ s.payload

/-- The bits of all segments. -/
def stream (band : Band) (parts : List Segment) : List Bool := parts.flatMap (Segment.bits band)

/-- The bits that segments need are the bits that are written. -/
theorem length_stream (band : Band) (parts : List Segment) :
    (stream band parts).length = bitsNeeded band parts := by
  induction parts with
  | nil => rfl
  | cons s rest ih =>
    simp only [stream] at ih
    simp only [stream, List.flatMap_cons, List.length_append, ih, Segment.bits, length_bitsOf,
      length_payload, bitsNeeded]

/-- The capacities in bits of the versions 1 to 40. -/
def capacities : CorrectionLevel → List Nat
  | .low => [152, 272, 440, 640, 864, 1088, 1248, 1552, 1856, 2192, 2592, 2960, 3424, 3688,
      4184, 4712, 5176, 5768, 6360, 6888, 7456, 8048, 8752, 9392, 10208, 10960, 11744, 12248,
      13048, 13880, 14744, 15640, 16568, 17528, 18448, 19472, 20528, 21616, 22496, 23648]
  | .medium => [128, 224, 352, 512, 688, 864, 992, 1232, 1456, 1728, 2032, 2320, 2672, 2920,
      3320, 3624, 4056, 4504, 5016, 5352, 5712, 6256, 6880, 7312, 8000, 8496, 9024, 9544,
      10136, 10984, 11640, 12328, 13048, 13800, 14496, 15312, 15936, 16816, 17728, 18672]
  | .quartile => [104, 176, 272, 384, 496, 608, 704, 880, 1056, 1232, 1440, 1648, 1952, 2088,
      2360, 2600, 2936, 3176, 3560, 3880, 4096, 4544, 4912, 5312, 5744, 6032, 6464, 6968,
      7288, 7880, 8264, 8920, 9368, 9848, 10288, 10832, 11408, 12016, 12656, 13328]
  | .high => [72, 128, 208, 288, 368, 480, 528, 688, 800, 976, 1120, 1264, 1440, 1576, 1784,
      2024, 2264, 2504, 2728, 3080, 3248, 3536, 3712, 4112, 4304, 4768, 5024, 5288, 5608,
      5960, 6344, 6760, 7208, 7688, 7888, 8432, 8768, 9136, 9776, 10208]

/-- The least version from `start` on that holds a number of bits. -/
def leastVersion? (level : CorrectionLevel) (bits start : Nat) : Option Nat :=
  (((capacities level).drop (start - 1)).findIdx? (bits ≤ ·)).map (start + ·)

/-- Searches a version for the cost in the band of `start`, and again from the
version found while that lies in another band. Each search starts in a later
band, so three are enough. -/
def fitFrom (level : CorrectionLevel) (parts : List Segment) : Nat → Nat → Option Nat
  | 0, _ => none
  | searches + 1, start =>
    match leastVersion? level (bitsNeeded (Band.ofVersion start) parts) start with
    | none => none
    | some version =>
      if Band.ofVersion version = Band.ofVersion start then some version
      else fitFrom level parts searches version

/-- The version of the smallest code that holds the segments. -/
def fitVersion (level : CorrectionLevel) (parts : List Segment) : Option Nat :=
  fitFrom level parts 3 1

end LabelLayout.Barcode.Qr
