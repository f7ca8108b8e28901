import LabelLayout.Scalar
import LabelLayout.Text.CodePoint

/-!
# `LabelLayout.Value`: values that come from outside

A design file, a data context and the arguments of an edit are trees of nulls,
flags, numbers, texts, lists and objects. `Value α` is such a tree over numbers
`α`; an object keeps its members in the order they came in.

* `truthy` is the reading of any value as a flag: null, false, zero, and empty
  texts, lists and objects count as off.
* `operand?` is the number a value brings to arithmetic. A flag counts as 0 or 1
  there, although it is no number to the field checks.
-/

set_option autoImplicit false

namespace LabelLayout

/-- A tree of plain data over numbers `α`. -/
inductive Value (α : Type) where
  | null
  | bool (flag : Bool)
  | num (x : α)
  | str (text : String)
  | list (items : List (Value α))
  | object (members : List (String × Value α))
  deriving Repr

/-- The plain data of design files. -/
abbrev Datum := Value Number

namespace Value

variable {α : Type}

instance : Inhabited (Value α) := ⟨.null⟩

mutual

/-- Decides whether two values are the same tree. -/
def decEq [DecidableEq α] : (a b : Value α) → Decidable (a = b)
  | .null, .null => isTrue rfl
  | .bool a, .bool b => decidable_of_iff (a = b) (by simp)
  | .num a, .num b => decidable_of_iff (a = b) (by simp)
  | .str a, .str b => decidable_of_iff (a = b) (by simp)
  | .list as, .list bs =>
    match decEqItems as bs with
    | isTrue h => isTrue (by rw [h])
    | isFalse h => isFalse (by simpa using h)
  | .object as, .object bs =>
    match decEqMembers as bs with
    | isTrue h => isTrue (by rw [h])
    | isFalse h => isFalse (by simpa using h)
  | .null, .bool _ | .null, .num _ | .null, .str _ | .null, .list _ | .null, .object _
  | .bool _, .null | .bool _, .num _ | .bool _, .str _ | .bool _, .list _
  | .bool _, .object _ | .num _, .null | .num _, .bool _ | .num _, .str _
  | .num _, .list _ | .num _, .object _ | .str _, .null | .str _, .bool _
  | .str _, .num _ | .str _, .list _ | .str _, .object _ | .list _, .null
  | .list _, .bool _ | .list _, .num _ | .list _, .str _ | .list _, .object _
  | .object _, .null | .object _, .bool _ | .object _, .num _ | .object _, .str _
  | .object _, .list _ => isFalse (by simp)

def decEqItems [DecidableEq α] : (as bs : List (Value α)) → Decidable (as = bs)
  | [], [] => isTrue rfl
  | [], _ :: _ => isFalse (by simp)
  | _ :: _, [] => isFalse (by simp)
  | a :: as, b :: bs =>
    match decEq a b, decEqItems as bs with
    | isTrue h, isTrue hs => isTrue (by rw [h, hs])
    | isFalse h, _ => isFalse (by simp [h])
    | _, isFalse h => isFalse (by simp [h])

def decEqMembers [DecidableEq α] :
    (as bs : List (String × Value α)) → Decidable (as = bs)
  | [], [] => isTrue rfl
  | [], _ :: _ => isFalse (by simp)
  | _ :: _, [] => isFalse (by simp)
  | (k, a) :: as, (l, b) :: bs =>
    if hk : k = l then
      match decEq a b, decEqMembers as bs with
      | isTrue h, isTrue hs => isTrue (by rw [hk, h, hs])
      | isFalse h, _ => isFalse (by simp [h])
      | _, isFalse h => isFalse (by simp [h])
    else isFalse (by simp [hk])

end

instance [DecidableEq α] : DecidableEq (Value α) := decEq

/-- The value read as a flag. -/
def truthy [Scalar α] : Value α → Bool
  | .null => false
  | .bool flag => flag
  | .num x => !Scalar.eq x (Scalar.ofInt 0)
  | .str text => !text.isEmpty
  | .list items => !items.isEmpty
  | .object members => !members.isEmpty

/-- The number that the value brings to arithmetic, if it brings one. -/
def operand? [Scalar α] : Value α → Option α
  | .bool flag => some (Scalar.ofInt flag.toNat)
  | .num x => some x
  | _ => none

/-- The number that the value brings to arithmetic; any other value is a fault. -/
def operand [Scalar α] (v : Value α) : Except Fault α :=
  match v.operand? with
  | some x => .ok x
  | none => .error .operand

/-- Whether a value brings that number to arithmetic. -/
def bringsNumber [Scalar α] (x : α) (b : Value α) : Bool :=
  match b.operand? with
  | some y => Scalar.eq x y
  | none => false

mutual

/-- Whether two values are equal as data: numbers and flags by their value, and
objects by their members in whatever order. -/
def agrees [Scalar α] : Value α → Value α → Bool
  | .null, .null => true
  | .str a, .str b => a == b
  | .list as, .list bs => agreesItems as bs
  | .object as, .object bs => as.length == bs.length && agreesMembers as bs
  | .bool a, b => bringsNumber (Scalar.ofInt a.toNat) b
  | .num a, b => bringsNumber a b
  | _, _ => false

def agreesItems [Scalar α] : List (Value α) → List (Value α) → Bool
  | [], [] => true
  | a :: as, b :: bs => agrees a b && agreesItems as bs
  | _, _ => false

def agreesMembers [Scalar α] : List (String × Value α) → List (String × Value α) → Bool
  | [], _ => true
  | (key, a) :: as, bs =>
    match bs.lookup key with
    | some b => agrees a b && agreesMembers as bs
    | none => false

end

/-- The member of that name, if the value is an object that has it. -/
def member? (name : String) : Value α → Option (Value α)
  | .object members => members.lookup name
  | _ => none

/-- What a value offers one by one: the items of a list, the names of an object's
members, the code points of a text. -/
def items? : Value α → Option (List (Value α))
  | .list items => some items
  | .object members => some (members.map fun (name, _) => .str name)
  | .str text =>
    some ((Text.codePoints text.toList).map fun code => .str (String.ofList (Text.spell code)))
  | _ => none

/-- The text of a value that is one. -/
def text? : Value α → Option String
  | .str text => some text
  | _ => none

/-- Whether the value may serve as a key: lists and objects may not. -/
def isKey : Value α → Bool
  | .list _ => false
  | .object _ => false
  | _ => true

end Value

end LabelLayout
