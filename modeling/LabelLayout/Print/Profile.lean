import LabelLayout.Check

/-!
# `LabelLayout.Print.Profile`: printers by name

A profile names a printer, its resolution and whatever settings a host keeps for
it. Only the resolution is checked: a positive integer.
-/

set_option autoImplicit false

namespace LabelLayout.Print

/-- A named printer. -/
structure Profile where
  name : Datum
  dpi : Int
  config : Datum
  deriving DecidableEq, Repr, Inhabited

namespace Profile

def defaultDpi : Int := 203

/-- A profile from plain values. -/
def check (name dpi config : Datum) : Except Error Profile :=
  match dpi with
  | .num (.int n) =>
    if 0 < n then .ok ⟨name, n, config⟩ else .error (.profileDpi name dpi)
  | _ => .error (.profileDpi name dpi)

/-- A profile from named arguments. -/
def ofArguments (arguments : Members) : Except Error Profile := do
  arguments.checkNames ["name", "dpi", "config"]
  check ((arguments.lookup "name").getD (.str "Default"))
    ((arguments.lookup "dpi").getD (.num (.int defaultDpi)))
    ((arguments.lookup "config").getD (.object []))

/-- The settings that count, an empty object when there are none. -/
def settingsOf (config : Datum) : Datum :=
  if config.truthy then config else .object []

/-- The profile of a stored record, whose other keys are passed over. -/
def ofRecord : Datum → Except Error Profile
  | .object members =>
    check ((members.lookup "name").getD (.str "Unnamed"))
      ((members.lookup "dpi").getD (.num (.int defaultDpi)))
      (settingsOf ((members.lookup "config").getD .null))
  | _ => .error .noSuchPart

/-- The record of a profile. -/
def record (p : Profile) : Datum :=
  .object [("name", p.name), ("dpi", .num (.int p.dpi)), ("config", settingsOf p.config)]

/-- The profiles of a host that has stored none. -/
def defaults : List Profile := [
  ⟨.str "Thermal 203 dpi", 203, .object []⟩,
  ⟨.str "Thermal 300 dpi", 300, .object []⟩,
  ⟨.str "Laser 600 dpi", 600, .object []⟩]

/-- The first profile with a name. -/
def find (profiles : List Profile) (name : Datum) : Except Error Profile :=
  match profiles.find? fun p => p.name.agrees name with
  | some p => .ok p
  | none => .error (.unknownProfile name)

end Profile

end LabelLayout.Print
