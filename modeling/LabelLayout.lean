import LabelLayout.Json.Encoding
import LabelLayout.Json.Printer
import LabelLayout.Json.Reader
import LabelLayout.Text.Blank
import LabelLayout.Text.Digit
import LabelLayout.Text.Upper
import LabelLayout.Value.Literal
import LabelLayout.Element.Attribute
import LabelLayout.Barcode
import LabelLayout.Barcode.Qr
import LabelLayout.Error
import LabelLayout.Element.Supply
import LabelLayout.Settings
import LabelLayout.Size
import LabelLayout.Document.Arrange
import LabelLayout.Binding.Catalogue
import LabelLayout.Design.File
import LabelLayout.Document.Edit
import LabelLayout.Print.Check
import LabelLayout.Print.Profile
import LabelLayout.Print.Report
import LabelLayout.Print.Sheet
import LabelLayout.Request
import LabelLayout.Proofs.Binary64.Nearest
import LabelLayout.Proofs.Binary64.Shortest
import LabelLayout.Proofs.Json.Number
import LabelLayout.Proofs.Design.Record
import LabelLayout.Proofs.Design.Refusal
import LabelLayout.Proofs.Design.RoundTrip
import LabelLayout.Proofs.Document.Session
import LabelLayout.Proofs.Element.Rule
import LabelLayout.Proofs.Design.Grammar
import LabelLayout.Proofs.Binary64.Order
import LabelLayout.Proofs.Number
import LabelLayout.Proofs.Print.Units
import LabelLayout.Proofs.Barcode.Fault
import LabelLayout.Proofs.Print.Compile
import LabelLayout.Proofs.Print.Advice
import LabelLayout.Proofs.Print.Edge
import LabelLayout.Proofs.Print.Resolution
import LabelLayout.Proofs.Print.Render
import LabelLayout.Proofs.Document.Locked
import LabelLayout.Proofs.Binding.Staged
import LabelLayout.Proofs.Binding.Fields
import LabelLayout.Proofs.Binding.Bound
import LabelLayout.Proofs.Document.Fresh
import LabelLayout.Proofs.Element.Fresh
import LabelLayout.Proofs.Template.RoundTrip
import LabelLayout.Proofs.Print.Drag
import LabelLayout.Proofs.Print.Hidden
import LabelLayout.Proofs.Text.Digit
import LabelLayout.Proofs.Barcode.Retail
import LabelLayout.Proofs.Barcode.CheckDigit
import LabelLayout.Proofs.Barcode.Encodes
import LabelLayout.Proofs.Print.Sheet
import LabelLayout.Proofs.Barcode.Printed
import LabelLayout.Proofs.Print.Scannable
import LabelLayout.Proofs.Print.Filled
import LabelLayout.Proofs.Binding.Report
import LabelLayout.Proofs.Geometry.Align
import LabelLayout.Proofs.Document.Move
import LabelLayout.Proofs.Geometry.Selection
import LabelLayout.Proofs.Document.PaintOrder
import LabelLayout.Proofs.Document.Commute
import LabelLayout.Proofs.Geometry.Translate
import LabelLayout.Proofs.Barcode.Qr
import LabelLayout.Proofs.Binding.Preview
import LabelLayout.Proofs.Geometry.Snap
import LabelLayout.Proofs.Design.Usable
