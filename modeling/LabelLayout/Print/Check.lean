import LabelLayout.Barcode
import LabelLayout.Barcode.Qr
import LabelLayout.Geometry.Bounds
import LabelLayout.Print.Compile

/-!
# `LabelLayout.Print.Check`: advice before printing

The check goes over the printable elements in order. It warns of a scan code
whose value does not encode, of a QR code with modules of less than two pixels,
and of an element that runs past the edge of the label.
-/

set_option autoImplicit false

namespace LabelLayout.Print

/-- What the check warns of. -/
inductive Warning (α : Type) where
  | refused (id : String) (refusal : Barcode.Refusal)
  | smallModules (id : String) (pixels dpi : α)
  | pastEdge (id : String)
  deriving DecidableEq, Repr, Inhabited

def Warning.id {α : Type} : Warning α → String
  | .refused id _ => id
  | .smallModules id _ _ => id
  | .pastEdge id => id

/-- A number with one decimal place. -/
def tenthsText : Number → String
  | .float x => String.ofList x.tenths
  | .int n => toString n ++ ".0"

/-- The fewest pixels of a QR module that scanners read reliably. -/
def minModulePixels : Int := 2

/-- The wording of a warning. -/
def Warning.message : Warning Number → String
  | .refused _ refusal => refusal.message
  | .smallModules _ pixels dpi =>
    let shown := Value.literal (.num dpi)
    s!"QR modules are {tenthsText pixels} px at {shown} dpi; " ++
      s!"at least {minModulePixels} px needed to scan reliably."
  | .pastEdge _ => "Element extends past the label edge."

variable {α : Type} [Scalar α]

/-- Warnings about the value of a scan code and the size of its modules. -/
def scanWarnings [Barcode.Qr.Package] (dpi : α) (e : Element α) : Except Fault (List (Warning α)) :=
  match e.body with
  | .barcode b =>
    match Barcode.normalize b.symbology b.value with
    | .ok _ => .ok []
    | .error (.refused refusal) => .ok [.refused e.id refusal]
    | .error (.fault f) => .error f
  | .qrcode q =>
    match Barcode.Qr.moduleCount q.value q.level with
    | .error (.refused refusal) => .ok [.refused e.id refusal]
    | .error (.fault f) => .error f
    | .ok modules => do
      let side := Scalar.min e.frame.width e.frame.height
      let pixels ← Scalar.div side (Scalar.constant modules 1)
      if Scalar.lt pixels (Scalar.ofInt minModulePixels) then
        return [.smallModules e.id pixels dpi]
      else return []
  | _ => .ok []

/-- The warning about an element that runs past the edge of a canvas. -/
def edgeWarnings (width height : Int) (e : Element α) : Except Fault (List (Warning α)) := do
  let b ← e.bounds
  let zero : α := Scalar.ofInt 0
  if Scalar.lt b.left zero || Scalar.lt b.top zero ||
      Scalar.lt (Scalar.ofInt width) b.right || Scalar.lt (Scalar.ofInt height) b.bottom then
    return [.pastEdge e.id]
  else return []

/-- All warnings about one element. -/
def elementWarnings [Barcode.Qr.Package] (p : PrintDocument α) (e : Element α) :
    Except Fault (List (Warning α)) := do
  let scan ← scanWarnings p.dpi e
  return scan ++ (← edgeWarnings p.width p.height e)

/-- The warnings about a compiled label. -/
def warnings [Barcode.Qr.Package] (p : PrintDocument α) : Except Fault (List (Warning α)) := do
  return (← p.printable.mapM (elementWarnings p)).flatten

end LabelLayout.Print
